import ChartLowering.Grammar
import ChartLowering.Json.Writer
import ChartLowering.Schema.Check

/-
  Channel and mark definitions.

  A channel takes its values from a field, from a constant in data space (a datum) or from a
  constant in visual space (a value), and from at most one of them. `ChannelDef.coordinate` is the
  channel as one side of a pair of coordinates.
-/

namespace ChartLowering

/-- Where a channel takes its values from. -/
inductive ChannelContent where
  | absent
  | field (name : String)
  | datum (constant : Json)
  | value (constant : Json)
deriving Repr, DecidableEq, Inhabited

/-- What a channel says about its axis or legend. -/
inductive GuideSetting where
  | unset
  /-- Set to null. -/
  | none
  /-- Set to false. -/
  | off
  | properties (fields : Fields)
deriving Repr, DecidableEq, Inhabited

namespace GuideSetting

/-- Null and false both switch a guide off. -/
def disables : GuideSetting → Bool
  | .none | .off => true
  | .unset | .properties _ => false

/-- The properties given for the guide. -/
def fields : GuideSetting → Fields
  | .properties fs => fs
  | _ => .empty

end GuideSetting

/-- The definition of one channel. -/
structure ChannelDef where
  content : ChannelContent
  measure : Option Measure
  scale : Option Fields
  axis : GuideSetting
  legend : GuideSetting
  extra : Fields
deriving Repr, DecidableEq, Inhabited

/-- One side of a pair of coordinates: a field by its name, or a value that refers to what is not a
field, such as an expression. -/
inductive Coordinate where
  | absent
  | field (name : String)
  | reference (value : Json)
deriving Repr, DecidableEq, Inhabited

namespace Coordinate

def isAbsent : Coordinate → Bool
  | .absent => true
  | _ => false

def field? : Coordinate → Option String
  | .field name => some name
  | _ => none

/-- A reference to an expression. -/
def expression (text : Json) : Coordinate := .reference (.obj [("expr", text)])

def ofJson : Json → Coordinate
  | .null => .absent
  | .str name => .field name
  | j => .reference j

def toJson : Coordinate → Json
  | .absent => .null
  | .field name => .str name
  | .reference j => j

end Coordinate

namespace ChannelContent

def constant? : ChannelContent → Option Json
  | .datum j | .value j => some j
  | _ => none

end ChannelContent

/-- The expression of a constant that refers to a signal; the key `signal` goes before `expr`. -/
def signalExpression? (constant : Json) : Option Json :=
  (constant.field? "signal").or (constant.field? "expr")

namespace ChannelDef

def field? (d : ChannelDef) : Option String :=
  match d.content with
  | .field name => some name
  | _ => none

def hasField (d : ChannelDef) : Bool := d.field?.isSome

def hasDatum (d : ChannelDef) : Bool :=
  match d.content with
  | .datum _ => true
  | _ => false

def hasValue (d : ChannelDef) : Bool :=
  match d.content with
  | .value _ => true
  | _ => false

def isFieldOrDatum (d : ChannelDef) : Bool := d.hasField || d.hasDatum

/-- Whether the constant refers to a signal. -/
def isSignal (d : ChannelDef) : Bool := (d.content.constant?.bind signalExpression?).isSome

def hasConstant (d : ChannelDef) : Bool := (d.hasDatum || d.hasValue) && !d.isSignal

/-- The channel as one side of a pair of coordinates: a field by its name, a constant by its
expression. -/
def coordinate (d : ChannelDef) : Coordinate :=
  match d.content with
  | .absent => .absent
  | .field name => .field name
  | .datum j | .value j =>
    .expression ((signalExpression? j).getD (.str j.expressionText))

/-- The setting of a family's guide; only axes and legends are guides. -/
def guide (d : ChannelDef) : Family → GuideSetting
  | .axis => d.axis
  | .legend => d.legend
  | _ => .unset

end ChannelDef

/-- A mark and its properties. -/
structure MarkDef where
  type : String
  extra : Fields
deriving Repr, DecidableEq, Inhabited

namespace Schema

/-- A measurement by its name, in any case and with blanks around it. -/
def readMeasure : Reading Measure
  | .str s => match Measure.ofName? (Text.toLower (Text.trim s)) with
    | some m => .valid m
    | none => .fail (.refused (.unknownMeasure s))
  | _ => .fail .notAString

/-- Null, an object of properties, or false; a zero is as good as false. -/
def readGuide : Reading GuideSetting
  | .null => .valid .none
  | .obj fs => .valid (.properties ⟨fs⟩)
  | .bool false => .valid .off
  | .num n =>
    if n.isZero then .valid .off
    else .either "dict" "false" (.fail .notAnObject) (.fail .notTheLiteral)
  | _ => .either "dict" "false" (.fail .notAnObject) (.fail .notTheLiteral)

/-- The fields of a channel definition. -/
def channelKeys : List String := ["field", "datum", "value", "type", "scale", "axis", "legend"]

/-- The ways in which a channel is defined; writing a null counts. -/
def definitionsGiven (fs : Fields) : List String :=
  ["field", "datum", "value"].filter fs.contains

/-- The content of a definition of which the field is already read. -/
def channelContent (field : Option String) (fs : Fields) : ChannelContent :=
  match field with
  | some name => .field name
  | none =>
    if fs.contains "field" then .absent
    else match fs.get? "datum", fs.get? "value" with
      | some j, _ => .datum j
      | none, some j => .value j
      | none, none => .absent

def readChannelFields (fs : Fields) : Check ChannelDef :=
  let parts := (fun field measure scale axis legend =>
      ({ content := channelContent field fs, measure, scale, axis, legend,
         extra := extraFields channelKeys fs } : ChannelDef)) <$>
    nullableField fs "field" readString <*>
    nullableField fs "type" readMeasure <*>
    nullableField fs "scale" readObject <*>
    optionalField fs "axis" .unset readGuide <*>
    optionalField fs "legend" .unset readGuide
  parts.andThen fun d =>
    let given := definitionsGiven fs
    if given.length ≤ 1 then .valid d else .fail (.refused (.mixedDefinition given))

def readChannel : Reading ChannelDef := readRecord readChannelFields

/-- A mark by its name, or an object with a type. -/
def readMark : Reading MarkDef
  | .str s => .valid ⟨s, .empty⟩
  | j => readRecord (fun fs =>
      (fun type => ⟨type, extraFields ["type"] fs⟩) <$> requiredField fs "type" readString) j

end Schema

end ChartLowering
