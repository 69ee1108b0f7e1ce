import ChartLowering.Binary64.Reader
import ChartLowering.Json.Basic

/-
  Reading values from text.

  A value is read from the front of the text and the rest is handed on. Every nested value is read
  from a shorter text, so the length of the text bounds the depth of the reading. A number with a
  point or an exponent is a floating-point number, any other is a whole number; infinities and what
  is no number are written as words, the latter being one object however often it is written. A
  string with one half of a surrogate pair has no value here, so its text is not read.
-/

namespace ChartLowering.Json

/-- The blanks between tokens. -/
def isGap (c : Char) : Bool := c == ' ' || c == '\n' || c == '\t' || c == '\r'

def skipGaps (cs : List Char) : List Char := cs.dropWhile isGap

def hexValue? (c : Char) : Option Nat :=
  if c.isDigit then some (c.toNat - '0'.toNat)
  else if 'a' ≤ c ∧ c ≤ 'f' then some (c.toNat - 'a'.toNat + 10)
  else if 'A' ≤ c ∧ c ≤ 'F' then some (c.toNat - 'A'.toNat + 10)
  else none

/-- Four hexadecimal digits. -/
def hex4? : List Char → Option (Nat × List Char)
  | a :: b :: c :: d :: rest => do
    let a ← hexValue? a
    let b ← hexValue? b
    let c ← hexValue? c
    let d ← hexValue? d
    some (a * 4096 + b * 256 + c * 16 + d, rest)
  | _ => none

/-- The character after a backslash and `u`; two halves of a surrogate pair make one character, and
neither half is one alone. -/
def unicodeEscape? (cs : List Char) : Option (Char × List Char) := do
  let (high, rest) ← hex4? cs
  if 0xd800 ≤ high ∧ high ≤ 0xdbff then
    match rest with
    | '\\' :: 'u' :: rest =>
      let (low, rest) ← hex4? rest
      if 0xdc00 ≤ low ∧ low ≤ 0xdfff then
        some (Char.ofNat (0x10000 + (high - 0xd800) * 0x400 + (low - 0xdc00)), rest)
      else none
    | _ => none
  else if 0xdc00 ≤ high ∧ high ≤ 0xdfff then none
  else some (Char.ofNat high, rest)

/-- The characters of a string up to its closing quote, newest first in `done`. -/
def readString (fuel : Nat) (done : List Char) (cs : List Char) : Option (String × List Char) :=
  match fuel, cs with
  | 0, _ => none
  | _, [] => none
  | _, '"' :: rest => some (String.ofList done.reverse, rest)
  | fuel + 1, '\\' :: c :: rest =>
    match c with
    | '"' => readString fuel ('"' :: done) rest
    | '\\' => readString fuel ('\\' :: done) rest
    | '/' => readString fuel ('/' :: done) rest
    | 'b' => readString fuel ('\x08' :: done) rest
    | 'f' => readString fuel ('\x0c' :: done) rest
    | 'n' => readString fuel ('\n' :: done) rest
    | 'r' => readString fuel ('\r' :: done) rest
    | 't' => readString fuel ('\t' :: done) rest
    | 'u' => match unicodeEscape? rest with
      | some (c, rest) => readString fuel (c :: done) rest
      | none => none
    | _ => none
  | fuel + 1, c :: rest => readString fuel (c :: done) rest

def isNumberChar (c : Char) : Bool :=
  c.isDigit || c == '-' || c == '+' || c == '.' || c == 'e' || c == 'E'

/-- A number; digits alone make a whole number. -/
def numberOf? (cs : List Char) : Option Number :=
  let (negative, ds) := Binary64.splitSign cs
  if ds.isEmpty then none
  else if ds.all Char.isDigit then
    let n : Int := Binary64.natOfDigits ds
    some (.int (if negative then -n else n))
  else (Binary64.ofUnsigned? negative ds).map .float

/-- The rest of the text after an expected word. -/
def expect? : List Char → List Char → Option (List Char)
  | [], cs => some cs
  | w :: word, c :: cs => if w = c then expect? word cs else none
  | _ :: _, [] => none

/-- What follows the first letter of the word for an infinity. -/
def infinityTail : List Char := ['n', 'f', 'i', 'n', 'i', 't', 'y']

mutual

/-- The value at the front of the text. -/
def readValue (fuel : Nat) (cs : List Char) : Option (Json × List Char) :=
  match fuel with
  | 0 => none
  | fuel + 1 =>
    match skipGaps cs with
    | 'n' :: rest => (expect? ['u', 'l', 'l'] rest).map (Json.null, ·)
    | 't' :: rest => (expect? ['r', 'u', 'e'] rest).map (Json.bool true, ·)
    | 'f' :: rest => (expect? ['a', 'l', 's', 'e'] rest).map (Json.bool false, ·)
    | '"' :: rest => (readString rest.length [] rest).map fun r => (Json.str r.1, r.2)
    | '[' :: rest =>
      match skipGaps rest with
      | ']' :: rest => some (.arr [], rest)
      | rest => (readItems fuel rest).map fun r => (Json.arr r.1, r.2)
    | '\x7b' :: rest =>
      match skipGaps rest with
      | '\x7d' :: rest => some (.obj [], rest)
      | rest => (readFields fuel rest).map fun r => (Json.obj r.1, r.2)
    | 'N' :: rest => (expect? ['a', 'N'] rest).map (Json.float (.nan 0), ·)
    | 'I' :: rest => (expect? infinityTail rest).map (Json.float (.infinity false), ·)
    | '-' :: 'I' :: rest => (expect? infinityTail rest).map (Json.float (.infinity true), ·)
    | cs => (numberOf? (cs.takeWhile isNumberChar)).map fun n =>
        (Json.num n, cs.dropWhile isNumberChar)

/-- The items of an array up to its closing bracket. -/
def readItems (fuel : Nat) (cs : List Char) : Option (List Json × List Char) :=
  match fuel with
  | 0 => none
  | fuel + 1 => do
    let (v, rest) ← readValue fuel cs
    match skipGaps rest with
    | ']' :: rest => some ([v], rest)
    | ',' :: rest =>
      let (vs, rest) ← readItems fuel rest
      some (v :: vs, rest)
    | _ => none

/-- The fields of an object up to its closing brace. -/
def readFields (fuel : Nat) (cs : List Char) : Option (List (String × Json) × List Char) :=
  match fuel with
  | 0 => none
  | fuel + 1 =>
    match skipGaps cs with
    | '"' :: rest => do
      let (k, rest) ← readString rest.length [] rest
      match skipGaps rest with
      | ':' :: rest =>
        let (v, rest) ← readValue fuel rest
        match skipGaps rest with
        | '\x7d' :: rest => some ([(k, v)], rest)
        | ',' :: rest =>
          let (fs, rest) ← readFields fuel rest
          some ((k, v) :: fs, rest)
        | _ => none
      | _ => none
    | _ => none

end

/-- Reads a text that holds one value and nothing else. -/
def read? (s : String) : Option Json :=
  let cs := s.toList
  match readValue (cs.length + 1) cs with
  | some (v, rest) => if (skipGaps rest).isEmpty then some v else none
  | none => none

end ChartLowering.Json
