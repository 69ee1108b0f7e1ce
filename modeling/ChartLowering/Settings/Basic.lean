import ChartLowering.Binary64.Reader
import ChartLowering.Grammar
import ChartLowering.Json.Basic
import ChartLowering.Text.CharClass

/-
  The settings of a compile.

  Settings come in layers: defaults, then a table of a configuration file, then the environment.
  A layer is loosely typed. It may hold values of any kind, of which texts, numbers and truth values
  can be told apart here; all others are alike to every field. Each field is taken from a layer if
  the value there is acceptable, and left alone otherwise, independently of the other fields.
  Settings that a caller makes by hand are used as they are, whatever values they hold.
-/

namespace ChartLowering

/-- The settings of a compile. A chart's own configuration goes before its settings. -/
structure Settings where
  defaultProjectionType : Json
  continuousWidth : Json
  continuousHeight : Json
  schemaUrl : Json
  strictDatasets : Json
deriving Repr, DecidableEq

/-- A fault of a configuration that ends its loading. -/
inductive SettingsError where
  /-- A table was expected where a nested table is looked up. -/
  | notATable
  /-- A whole number is too large for a size. -/
  | outOfRange
deriving Repr, DecidableEq

namespace Settings

def standard : Settings where
  defaultProjectionType := .str "equalEarth"
  continuousWidth := .int 300
  continuousHeight := .int 300
  schemaUrl := .str "https://vega.github.io/schema/vega/v5.json"
  strictDatasets := .bool false

/-- Whether only declared datasets are accepted. -/
def isStrict (s : Settings) : Bool := s.strictDatasets.isSubstantial

/-- The view size where neither a view nor the chart's configuration has one. -/
def continuousSize (s : Settings) : Dimension → Json
  | .width => s.continuousWidth
  | .height => s.continuousHeight

/-- A decimal digit of any script as the ASCII digit of the same value. -/
def asciiDigit (c : Char) : Char :=
  match Text.decimalDigitValue? c with
  | some n => Nat.digitChar n
  | none => c

/-- A value that a layer has for a field. -/
inductive Given where
  | text (s : String)
  | number (n : Number)
  | truth (b : Bool)
  /-- A list, a table, a date or whatever else is none of the above. -/
  | other
deriving Repr, DecidableEq

/-- A layer of settings: values by the names of the fields. -/
abbrev Layer := OrderedMap String Given

/-- A number in a configuration text: in digits of any script, with underscores between digits and
white space around it. -/
def numberOfText? (s : String) : Option Binary64 :=
  let digits := (Text.trimBy Text.isWhiteSpace s).toList.map asciiDigit
  (Binary64.joinDigits? ' ' digits).bind Binary64.ofChars?

/-- A number as a floating-point number. A whole number may be out of range. -/
def floatOf (n : Number) : Except SettingsError Binary64 :=
  match n.toBinary64? with
  | some x => .ok x
  | none => .error .outOfRange

/-- A value as a number, if it is one or can be read as one. The truth values are 1 and 0. -/
def numberOf? : Given → Except SettingsError (Option Binary64)
  | .text s => .ok (numberOfText? s)
  | .number n => (floatOf n).map some
  | .truth b => (floatOf (.int (if b then 1 else 0))).map some
  | .other => .ok none

/-- A value as a size: a number above zero. -/
def sizeOf? (v : Given) : Except SettingsError (Option Json) :=
  (numberOf? v).map fun x? => (x?.filter Binary64.isPositive).map .float

/-- A projection type, without the blanks around it; a blank text is none. -/
def projectionTypeOf? : Given → Option Json
  | .text s => if (Text.trim s).isEmpty then none else some (.str (Text.trim s))
  | _ => none

/-- Any text is an address of a schema. -/
def schemaUrlOf? : Given → Option Json
  | .text s => some (.str s)
  | _ => none

/-- The spellings of yes. -/
def yesWords : List String := ["1", "true", "t", "yes", "y", "on"]

/-- A value as a decision; whatever is no yes is a no. -/
def decisionOf : Given → Bool
  | .truth b => b
  | .number n => !n.isZero
  | .text s => yesWords.contains (Text.toLower (Text.trim s))
  | .other => false

/-- A size field of a layer, or the current size. -/
def sizeField (l : Layer) (k : String) (current : Json) : Except SettingsError Json :=
  match l.get? k with
  | none => .ok current
  | some v => (sizeOf? v).map (·.getD current)

/-- The settings with the acceptable fields of a layer put over them. -/
def apply (s : Settings) (l : Layer) : Except SettingsError Settings := do
  let width ← sizeField l "continuous_width" s.continuousWidth
  let height ← sizeField l "continuous_height" s.continuousHeight
  return {
    defaultProjectionType :=
      ((l.get? "default_projection_type").bind projectionTypeOf?).getD s.defaultProjectionType
    continuousWidth := width
    continuousHeight := height
    schemaUrl := ((l.get? "schema_url").bind schemaUrlOf?).getD s.schemaUrl
    strictDatasets :=
      ((l.get? "strict_datasets").map fun v => .bool (decisionOf v)).getD s.strictDatasets }

/-! ## Layers of a caller -/

def Given.ofJson : Json → Given
  | .str s => .text s
  | .num n => .number n
  | .bool b => .truth b
  | _ => .other

/-- The layer that a caller hands over. Only an object has fields to take; anything else leaves the
settings alone. -/
def Layer.ofJson (j : Json) : Layer :=
  match j.fields? with
  | some fields => fields.mapValues Given.ofJson
  | none => .empty

end Settings

end ChartLowering
