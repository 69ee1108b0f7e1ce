import ChartLowering.Binary64.Reader
import ChartLowering.Schema.View

/-
  Whole specifications: a view with its datasets and its configuration.

  A view that stands at the top level carries the datasets and the configuration among its own
  fields; they are lifted out, and the schema address is dropped. The same can be written with the
  view under a key of its own.
-/

namespace ChartLowering

/-- The view size that a chart configures. -/
structure ViewConfig where
  continuousWidth : Option Binary64
  continuousHeight : Option Binary64
deriving Repr, DecidableEq

def ViewConfig.size (c : ViewConfig) : Dimension → Option Binary64
  | .width => c.continuousWidth
  | .height => c.continuousHeight

/-- The properties that a chart configures for each family, and the view size. -/
structure Config where
  projection : Fields
  scale : Fields
  axis : Fields
  legend : Fields
  view : ViewConfig
deriving Repr, DecidableEq

namespace Config

/-- The properties that lie beneath every component of a family. -/
def defaults (c : Config) : Family → Fields
  | .projection => c.projection
  | .scale => c.scale
  | .axis => c.axis
  | .legend => c.legend

def plain : Config := ⟨.empty, .empty, .empty, .empty, ⟨none, none⟩⟩

end Config

/-- A whole specification. -/
structure TopLevelSpec where
  view : ViewSpec
  datasets : OrderedMap String (List Fields)
  config : Config
deriving Repr

namespace Schema

/-- A text without its underscores, which stand one at a time and neither at the beginning nor at
the end; `previous` is the character before the text. -/
def dropUnderscores? (previous : Char) : List Char → Option (List Char)
  | [] => if previous = '_' then none else some []
  | c :: rest =>
    if c = '_' then if previous = '_' then none else dropUnderscores? c rest
    else (dropUnderscores? c rest).map (c :: ·)

/-- A size written as text: trimmed if it has no underscore, else without its underscores. -/
def numberOfText? (s : String) : Option Binary64 :=
  if s.toList.contains '_' then (dropUnderscores? '_' s.toList).bind Binary64.ofChars?
  else Binary64.ofChars? (Text.trimBy Text.isWhiteSpace s).toList

/-- A number, a truth value, or a number written as text. -/
def readNumber : Reading Binary64
  | .str s => match numberOfText? s with
    | some x => .valid x
    | none => .fail .notNumeric
  | j => match j.number?.bind Number.toBinary64? with
    | some x => .valid x
    | none => .fail .notANumber

/-- A size under one of two keys, of which the first wins. -/
def readSizeField (fs : Fields) (key otherKey : String) : Check (Option Binary64) :=
  if fs.contains key then nullableField fs key readNumber
  else nullableField fs otherKey readNumber

def readViewConfigFields (fs : Fields) : Check ViewConfig :=
  ViewConfig.mk <$>
    readSizeField fs "continuousWidth" "continuous_width" <*>
    readSizeField fs "continuousHeight" "continuous_height"

def readViewConfig : Reading ViewConfig := readRecord readViewConfigFields

def readConfigFields (fs : Fields) : Check Config :=
  Config.mk <$>
    optionalField fs "projection" .empty readObject <*>
    optionalField fs "scale" .empty readObject <*>
    optionalField fs "axis" .empty readObject <*>
    optionalField fs "legend" .empty readObject <*>
    optionalField fs "view" ⟨none, none⟩ readViewConfig

def readConfig : Reading Config := readRecord readConfigFields

def readDatasets : Reading (OrderedMap String (List Fields))
  | .obj fs => (readEntries readRows fs).map OrderedMap.mk
  | _ => .fail .notAnObject

def topLevelKeys : List String := ["view", "datasets", "config"]

/-- The fields of a specification with the view under its own key. -/
def topLevelFields (fs : Fields) : Fields :=
  match viewKind? fs with
  | none => fs
  | some _ =>
    let lifted := ["$schema", "datasets", "config"]
    ⟨("view", .ofFields (extraFields lifted fs)) ::
      (fs.filterKeys fun k => k == "datasets" || k == "config").entries⟩

def readTopLevelFields (fs : Fields) : Check TopLevelSpec :=
  (fun view datasets config () => ⟨view, datasets, config⟩) <$>
    requiredField fs "view" readView <*>
    optionalField fs "datasets" .empty readDatasets <*>
    optionalField fs "config" .plain readConfig <*>
    noExtraKeys topLevelKeys fs

def readTopLevel : Reading TopLevelSpec := readRecord (readTopLevelFields ∘ topLevelFields)

end Schema

end ChartLowering
