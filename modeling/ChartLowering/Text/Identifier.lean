import ChartLowering.Text.CharClass

/-
  Identifiers made from free text.

  Every name that a compile generates goes through `identifier`: characters that may not stand in an
  identifier become underscores, and an identifier never opens with a digit.
-/

namespace ChartLowering.Text

def identifierChar (c : Char) : Char := if isWordChar c then c else '_'

/-- An underscore is put before a leading decimal digit. -/
def guardDigit : List Char → List Char
  | [] => []
  | c :: rest => if isDecimalDigit c then '_' :: c :: rest else c :: rest

def identifierChars (cs : List Char) : List Char := guardDigit (cs.map identifierChar)

def identifier (s : String) : String := String.ofList (identifierChars s.toList)

/-- The name of a part of the thing called `owner`; an unnamed owner's parts stand alone. -/
def qualified (owner part : String) : String :=
  identifier (if owner.isEmpty then part else owner ++ "_" ++ part)

theorem isWordChar_identifierChar (c : Char) : isWordChar (identifierChar c) = true := by
  unfold identifierChar
  split
  · assumption
  · exact isWordChar_underscore

theorem identifierChar_of_word {c : Char} (h : isWordChar c = true) : identifierChar c = c := by
  simp [identifierChar, h]

end ChartLowering.Text
