import ChartLowering.Text.CharClass

/-
  Text as it is displayed inside a message.

  A displayed text stands between single quotes, or between double quotes when it holds single
  quotes only. The backslash, the chosen quote, the line and tab controls and every hidden
  character are escaped, so the display is one visible line.
-/

namespace ChartLowering.Text

/-- Lower-case hexadecimal digits, padded with zeros to at least `width`. -/
def hex (width n : Nat) : List Char :=
  let digits := Nat.toDigits 16 n
  List.replicate (width - digits.length) '0' ++ digits

/-- A hidden character by its code point, in two, four or eight digits. -/
def escapeHidden (n : Nat) : List Char :=
  if n < 0x100 then '\\' :: 'x' :: hex 2 n
  else if n < 0x10000 then '\\' :: 'u' :: hex 4 n
  else '\\' :: 'U' :: hex 8 n

def displayChar (quote c : Char) : List Char :=
  if c = quote ∨ c = '\\' then ['\\', c]
  else if c = '\n' then ['\\', 'n']
  else if c = '\r' then ['\\', 'r']
  else if c = '\t' then ['\\', 't']
  else if isHidden c then escapeHidden c.toNat
  else [c]

/-- Double quotes are used only where they save escapes. -/
def quoteFor (cs : List Char) : Char :=
  if '\'' ∈ cs ∧ '"' ∉ cs then '"' else '\''

def quoted (s : String) : String :=
  let quote := quoteFor s.toList
  String.ofList (quote :: (s.toList.flatMap (displayChar quote)) ++ [quote])

end ChartLowering.Text
