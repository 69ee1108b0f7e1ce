import ChartLowering.Binary64.Basic

/-
  Decimal text read as a double-precision number.

  The grammar is a sign, then digits with an optional point and exponent, or one of the words for
  infinity and not-a-number in any case. Text that is out of range becomes an infinity or a zero.
-/

namespace ChartLowering.Binary64

def digitValue (c : Char) : Nat := c.toNat - '0'.toNat

/-- The number written by ASCII digits, first digit first. -/
def natOfDigits (ds : List Char) : Nat := ds.foldl (fun n c => 10 * n + digitValue c) 0

/-- The sign, if one is written, and the rest. -/
def splitSign : List Char → Bool × List Char
  | '-' :: rest => (true, rest)
  | '+' :: rest => (false, rest)
  | cs => (false, cs)

/-- The exponent after an `e`; nothing else may follow. No exponent is zero. -/
def exponentOf? : List Char → Option Int
  | [] => some 0
  | c :: rest =>
    if c = 'e' ∨ c = 'E' then
      let (negative, ds) := splitSign rest
      if ds.isEmpty || !ds.all Char.isDigit then none
      else some (if negative then -(natOfDigits ds : Int) else natOfDigits ds)
    else none

/-- The digits after a point, if there is one, and the rest. -/
def splitFraction : List Char → List Char × List Char
  | '.' :: rest => (rest.takeWhile Char.isDigit, rest.dropWhile Char.isDigit)
  | cs => ([], cs)

def ofUnsigned? (negative : Bool) (cs : List Char) : Option Binary64 :=
  let whole := cs.takeWhile Char.isDigit
  let (fraction, rest) := splitFraction (cs.dropWhile Char.isDigit)
  if whole.isEmpty && fraction.isEmpty then none
  else (exponentOf? rest).map fun e =>
    ofDecimal negative (natOfDigits (whole ++ fraction)) (e - fraction.length)

/-- Reads a whole text; blanks and underscores are not part of the grammar. -/
def ofChars? (cs : List Char) : Option Binary64 :=
  let (negative, rest) := splitSign cs
  let word := rest.map Char.toLower
  if word = ['i', 'n', 'f'] ∨ word = ['i', 'n', 'f', 'i', 'n', 'i', 't', 'y'] then
    some (.infinity negative)
  else if word = ['n', 'a', 'n'] then some (.nan 0)
  else ofUnsigned? negative rest

/-- Drops the underscores of a text in which each stands between two digits; `previous` is the
character before the text. -/
def joinDigits? (previous : Char) : List Char → Option (List Char)
  | [] => if previous = '_' then none else some []
  | c :: rest =>
    if c = '_' then
      if previous.isDigit then joinDigits? c rest else none
    else if previous = '_' ∧ !c.isDigit then none
    else (joinDigits? c rest).map (c :: ·)

end ChartLowering.Binary64
