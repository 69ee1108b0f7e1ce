import ChartLowering.Text.WordTable
import ChartLowering.Text.HiddenTable

/-
  The character classes that names and displayed text depend on.

  A word character may stand in a generated identifier, a decimal digit may not open one, a hidden
  character is displayed by its code point, and blanks are trimmed. Each class is a table of closed
  ranges of code points.
-/

namespace ChartLowering.Text

/-- Whether a code point lies in one of the ranges. -/
def inRanges (ranges : List (Nat × Nat)) (n : Nat) : Bool :=
  ranges.any fun r => r.1 ≤ n && n ≤ r.2

/-- A letter, a number or the underscore. -/
def isWordChar (c : Char) : Bool := inRanges wordRanges c.toNat

/-- A decimal digit of any script. -/
def isDecimalDigit (c : Char) : Bool := inRanges decimalDigitRanges c.toNat

/-- The value of a decimal digit of any script: the distance to the last zero before it. -/
def decimalDigitValue? (c : Char) : Option Nat :=
  (decimalDigitRanges.find? fun r => r.1 ≤ c.toNat && c.toNat ≤ r.2).map fun r =>
    (c.toNat - r.1) % 10

/-- Displayed by its code point, since it would leave no mark. -/
def isHidden (c : Char) : Bool := inRanges hiddenRanges c.toNat

/-- The characters with the Unicode property White_Space. -/
def whiteSpaceRanges : List (Nat × Nat) :=
  [(0x9, 0xd), (0x20, 0x20), (0x85, 0x85), (0xa0, 0xa0), (0x1680, 0x1680), (0x2000, 0x200a),
   (0x2028, 0x2029), (0x202f, 0x202f), (0x205f, 0x205f), (0x3000, 0x3000)]

def isWhiteSpace (c : Char) : Bool := inRanges whiteSpaceRanges c.toNat

/-- White space, or one of the four information separators. -/
def isBlank (c : Char) : Bool := isWhiteSpace c || (0x1c ≤ c.toNat && c.toNat ≤ 0x1f)

/-- The text without the characters of a class at its two ends. -/
def trimBy (p : Char → Bool) (s : String) : String :=
  String.ofList ((s.toList.dropWhile p).reverse.dropWhile p).reverse

/-- The text without the blanks at its two ends. -/
def trim (s : String) : String := trimBy isBlank s

/-- Upper-case ASCII letters made lower-case. That is all a comparison with a lower-case ASCII word
without the letter k needs: the only character outside ASCII whose lower-case form is an ASCII
letter is the Kelvin sign, which becomes k. -/
def toLower (s : String) : String := String.ofList (s.toList.map Char.toLower)

theorem isWordChar_underscore : isWordChar '_' = true := by decide +kernel

theorem isDecimalDigit_underscore : isDecimalDigit '_' = false := by decide +kernel

end ChartLowering.Text
