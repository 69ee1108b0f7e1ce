import ChartLowering.Flow.Geometry
import ChartLowering.Json.Fingerprint
import ChartLowering.Schema.Normal

/-
  Pipelines from a dataset to the rows of a view.

  A pipeline starts at a source and applies transforms in order: geometry is extracted into a
  signal, and pairs of coordinates are projected to positions. Every step reports what it reads
  and writes and a fingerprint of its parameters. A projection is named logically in a step, and so
  fingerprinted; the name that the projection has in the end is put in when the step is written out.
-/

namespace ChartLowering

/-- A named root dataset. -/
structure Source where
  name : String
  dataset : Json
deriving Repr, DecidableEq

/-- A step that derives new rows or a signal. A projection is looked up as seen from a view, given
by its index; without a view the logical name is the final one. -/
inductive Transform where
  | geojson (coordinates : Option (List Coordinate)) (geometry : Option String) (signal : String)
  | geopoint (projection : String) (coordinates : List Coordinate) (positions : List String)
      (view : Option Nat)
deriving Repr, DecidableEq

/-- A step of a pipeline with its two ends. -/
inductive FlowStep where
  | source (s : Source)
  | transform (t : Transform)
  | output (name : String)
deriving Repr, DecidableEq

/-- Each text once, in increasing order. -/
def insertText (s : String) : List String → List String
  | [] => [s]
  | t :: rest =>
    if s = t then t :: rest
    else if s < t then s :: t :: rest
    else t :: insertText s rest

def sortedTexts (l : List String) : List String := l.foldr insertText []

namespace Transform

def kind : Transform → String
  | .geojson .. => "GeoJSON"
  | .geopoint .. => "GeoPoint"

/-- A geometry field of the empty name counts as none. -/
def geometryField (geometry : Option String) : Option String := geometry.filter (!·.isEmpty)

/-- The fields that the step reads. -/
def reads : Transform → List String
  | .geojson coordinates geometry _ =>
    sortedTexts ((coordinates.getD []).filterMap Coordinate.field? ++
      (geometryField geometry).toList)
  | .geopoint _ coordinates _ _ => sortedTexts (coordinates.filterMap Coordinate.field?)

/-- The fields that the step writes. -/
def writes : Transform → List String
  | .geojson .. => []
  | .geopoint _ _ positions _ => sortedTexts positions

/-- Coordinates as a list of values. -/
def coordinatesJson (l : List Coordinate) : Json := .arr (l.map Coordinate.toJson)

/-- What tells the step from other steps of its kind. -/
def parameters : Transform → List (String × Json)
  | .geojson coordinates geometry signal =>
    [("fields", .orNull coordinatesJson coordinates), ("geojson", .orNull .str geometry),
     ("signal", .str signal)]
  | .geopoint projection coordinates positions _ =>
    [("projection", .str projection), ("fields", coordinatesJson coordinates),
     ("as", .strings positions)]

/-- The test that keeps the rows with valid geometry. -/
def validityTest (field : String) : String := "isValid(datum[\"" ++ field ++ "\"])"

/-- The step in the language of the runtime; `assigned` gives the final name of a projection as
seen from a view. Rows without valid geometry are filtered out before geometry is extracted. -/
def emit (assigned : Nat → String → String) : Transform → List Json
  | .geojson coordinates geometry signal =>
    let field := geometryField geometry
    (field.map fun f =>
      Json.obj [("type", .str "filter"), ("expr", .str (validityTest f))]).toList ++
    [.obj ([("type", .str "geojson")] ++
      (coordinates.map fun l => ("fields", coordinatesJson l)).toList ++
      (field.map fun f => ("geojson", Json.str f)).toList ++ [("signal", .str signal)])]
  | .geopoint projection coordinates positions view =>
    let name := match view with
      | some i => assigned i projection
      | none => projection
    [.obj [("type", .str "geopoint"), ("projection", .str name),
      ("fields", coordinatesJson coordinates), ("as", .strings positions)]]

end Transform

namespace FlowStep

def kind : FlowStep → String
  | .source _ => "Source"
  | .transform t => t.kind
  | .output _ => "Output"

def parameters : FlowStep → List (String × Json)
  | .source s => [("name", .str s.name)]
  | .transform t => t.parameters
  | .output name => [("name", .str name)]

/-- The fingerprint of the kind and the parameters. What comes before the step does not count. -/
def fingerprint (s : FlowStep) : String :=
  Json.fingerprint (.obj (("type", .str s.kind) :: s.parameters))

def reads : FlowStep → List String
  | .transform t => t.reads
  | _ => []

def writes : FlowStep → List String
  | .transform t => t.writes
  | _ => []

def emit (assigned : Nat → String → String) : FlowStep → List Json
  | .transform t => t.emit assigned
  | _ => []

def transform? : FlowStep → Option Transform
  | .transform t => some t
  | _ => none

/-- The source that a chain of steps starts from. -/
def origin? : List FlowStep → Option Source
  | .source s :: _ => some s
  | _ => none

end FlowStep

/-- A source, if there is one, and the transforms after it. -/
structure Pipeline where
  source : Option Source
  transforms : List Transform
deriving Repr, DecidableEq

namespace Pipeline

/-- The steps of a pipeline that ends in a named output. -/
def steps (p : Pipeline) (output : String) : List FlowStep :=
  (p.source.map FlowStep.source).toList ++ p.transforms.map FlowStep.transform ++ [.output output]

/-- The geometry signals that the pipeline extracts. -/
def signals (p : Pipeline) : List String :=
  p.transforms.filterMap fun
    | .geojson _ _ signal => some signal
    | .geopoint .. => none

end Pipeline

namespace GeometryRole

/-- The extraction of the role's geometry into a signal. -/
def extraction (signal : String) : GeometryRole → Transform
  | .coordinates pair => .geojson (some pair.toList) none signal
  | .shape field => .geojson none (some field) signal

end GeometryRole

namespace UnitSpec

/-- One geometry extraction for every role; `name` completes the generated names. -/
def extractions (u : UnitSpec) (name : String → String) : List Transform :=
  u.geometryRoles.zipIdx.map fun (role, i) => role.extraction (name (geometrySuffix i))

/-- One projection to positions for every pair of coordinates. -/
def projections (u : UnitSpec) (projection : String) (name : String → String) (view : Option Nat) :
    List Transform :=
  u.coordinatePairs.map fun (suffix, pair) =>
    .geopoint projection pair.toList [name ("x" ++ suffix), name ("y" ++ suffix)] view

end UnitSpec

end ChartLowering
