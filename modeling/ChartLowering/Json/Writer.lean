import ChartLowering.Json.Basic
import ChartLowering.Text.Quoted

/-
  Values written as text.

  One writer serves three purposes, told apart by a `Style`: the compact text that is sent out, the
  spaced ASCII text that stands for a constant inside an expression, and the canonical text that is
  fingerprinted, which is the compact text of the value with its keys sorted at every depth.
-/

namespace ChartLowering.Json

/-- What separates items and keys from values, and whether only ASCII is written. -/
structure Style where
  comma : List Char
  colon : List Char
  asciiOnly : Bool

/-- No blanks, and all characters as they are. -/
def Style.compact : Style := ⟨[','], [':'], false⟩

/-- A blank after each separator, and characters outside visible ASCII by their code units. -/
def Style.spaced : Style := ⟨[',', ' '], [':', ' '], true⟩

def unitEscape (n : Nat) : List Char := '\\' :: 'u' :: Text.hex 4 n

/-- A character by its UTF-16 units. -/
def unitEscapes (n : Nat) : List Char :=
  if n < 0x10000 then unitEscape n
  else unitEscape (0xd800 + (n - 0x10000) / 0x400) ++ unitEscape (0xdc00 + (n - 0x10000) % 0x400)

def writeChar (style : Style) (c : Char) : List Char :=
  if c = '"' ∨ c = '\\' then ['\\', c]
  else if c = '\x08' then ['\\', 'b']
  else if c = '\x0c' then ['\\', 'f']
  else if c = '\n' then ['\\', 'n']
  else if c = '\r' then ['\\', 'r']
  else if c = '\t' then ['\\', 't']
  else if c.toNat < 0x20 ∨ (style.asciiOnly ∧ 0x7e < c.toNat) then unitEscapes c.toNat
  else [c]

def writeString (style : Style) (s : String) : List Char :=
  '"' :: (s.toList.flatMap (writeChar style) ++ ['"'])

/-- Written parts with a separator between each two. -/
def joinChars (separator : List Char) : List (List Char) → List Char
  | [] => []
  | [x] => x
  | x :: y :: rest => x ++ separator ++ joinChars separator (y :: rest)

mutual

def write (style : Style) : Json → List Char
  | .null => ['n', 'u', 'l', 'l']
  | .bool true => ['t', 'r', 'u', 'e']
  | .bool false => ['f', 'a', 'l', 's', 'e']
  | .num n => n.text.toList
  | .str s => writeString style s
  | .arr items => '[' :: (joinChars style.comma (writeItems style items) ++ [']'])
  | .table rows => '[' :: (joinChars style.comma (writeItems style rows) ++ [']'])
  | .obj fields => '\x7b' :: (joinChars style.comma (writeFields style fields) ++ ['\x7d'])

def writeItems (style : Style) : List Json → List (List Char)
  | [] => []
  | v :: rest => write style v :: writeItems style rest

def writeFields (style : Style) : List (String × Json) → List (List Char)
  | [] => []
  | (k, v) :: rest =>
    (writeString style k ++ style.colon ++ write style v) :: writeFields style rest

end

def compactText (j : Json) : String := String.ofList (write .compact j)

/-- The text of a constant inside an expression: a string stands for itself. -/
def expressionText : Json → String
  | .str s => s
  | j => String.ofList (write .spaced j)

/-- Puts a field before the first field with a key not below its own. -/
def insertField (f : String × Json) : List (String × Json) → List (String × Json)
  | [] => [f]
  | g :: rest => if f.1 ≤ g.1 then f :: g :: rest else g :: insertField f rest

mutual

/-- The value with the keys of every object sorted by code point. -/
def sorted : Json → Json
  | .arr items => .arr (sortedItems items)
  | .table rows => .arr (sortedItems rows)
  | .obj fields => .obj (sortedFields fields)
  | j => j

def sortedItems : List Json → List Json
  | [] => []
  | v :: rest => sorted v :: sortedItems rest

def sortedFields : List (String × Json) → List (String × Json)
  | [] => []
  | (k, v) :: rest => insertField (k, sorted v) (sortedFields rest)

end

/-- One text for all values that differ in the order of keys only. -/
def canonicalText (j : Json) : String := compactText (sorted j)

end ChartLowering.Json
