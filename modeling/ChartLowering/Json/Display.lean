import ChartLowering.Json.Basic
import ChartLowering.Text.Quoted

/-
  Values displayed in messages.

  A display is meant for the reader of a message and not for reading back. Texts are quoted, null
  and the truth values are words with a capital, and numbers that are not finite are words without.
-/

namespace ChartLowering

/-- The display of a number. -/
def Number.display : Number → String
  | .float (.infinity negative) => if negative then "-inf" else "inf"
  | .float (.nan _) => "nan"
  | n => n.text

namespace Json

mutual

def display : Json → String
  | .null => "None"
  | .bool b => if b then "True" else "False"
  | .num n => n.display
  | .str s => Text.quoted s
  | .arr items => "[" ++ ", ".intercalate (displayItems items) ++ "]"
  | .table rows => "[" ++ ", ".intercalate (displayItems rows) ++ "]"
  | .obj fields => "\x7b" ++ ", ".intercalate (displayFields fields) ++ "\x7d"

def displayItems : List Json → List String
  | [] => []
  | v :: rest => display v :: displayItems rest

def displayFields : List (String × Json) → List String
  | [] => []
  | (k, v) :: rest => (Text.quoted k ++ ": " ++ display v) :: displayFields rest

end

end Json

end ChartLowering
