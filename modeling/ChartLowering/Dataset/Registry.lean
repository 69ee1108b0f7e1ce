import ChartLowering.Component.Basic
import ChartLowering.Flow.Transform

/-
  The datasets of one compile.

  Each distinct data definition becomes one root dataset. The views register their pipelines under
  output names; linking maps every output name to a concrete dataset: an output without transforms
  to its source, and outputs whose source and transforms fingerprint equally to one derived dataset.
  Every consultation of a dataset is noted, and only datasets that were consulted are written out.
-/

namespace ChartLowering

/-- What a root dataset is found by: its name, or the fingerprint of its definition. -/
inductive SourceKey where
  | named (name : String)
  | inline (fingerprint : String)
deriving Repr, DecidableEq

/-- The datasets of one compile. -/
structure Registry where
  /-- The rows of the declared datasets. -/
  declared : OrderedMap String Json
  strict : Bool
  sources : OrderedMap SourceKey Source
  /-- How many root datasets were named by number. -/
  numbered : Nat
  outputs : OrderedMap String Pipeline
  concrete : OrderedMap String String
  derived : OrderedMap String Pipeline
  signals : List String
  /-- The names that were consulted, latest first, with repetitions. -/
  consulted : List String
deriving Repr

/-- A dataset as it is written out. -/
inductive DatasetDef where
  | root (dataset : Json)
  | derived (name source : String) (transforms : List Json)
deriving Repr, DecidableEq

namespace Registry

def start (declared : OrderedMap String Json) (strict : Bool) : Registry :=
  { declared, strict, sources := .empty, numbered := 0, outputs := .empty, concrete := .empty,
    derived := .empty, signals := [], consulted := [] }

/-! ## Root datasets -/

def sourceKey (d : DataSpec) : SourceKey :=
  match d.origin with
  | .name n => .named n
  | _ => .inline d.toJson.fingerprint

/-- The root dataset of a name: the declared rows, or data that come from elsewhere. -/
def namedSource (r : Registry) (name : String) : Except CompileError Source :=
  match r.declared.get? name with
  | some rows => .ok ⟨name, .obj [("name", .str name), ("values", rows)]⟩
  | none =>
    if r.strict then .error (.undeclaredDataset name) else .ok ⟨name, .obj [("name", .str name)]⟩

/-- The name of the `i`-th root dataset without a name of its own. -/
def numberedName (i : Nat) : String := "source_" ++ toString i

/-- The fields that an address contributes; an empty format is left out. -/
def fetchFields (address : String) (format : Option Fields) : List (String × Json) :=
  ("url", .str address) ::
    ((format.filter (!·.isEmpty)).map fun f => ("format", (Json.ofFields f).plain)).toList

/-- The root dataset of a definition, which is made when the definition is first seen. -/
def sourceFor (r : Registry) (d : DataSpec) : Except CompileError (Source × Registry) :=
  let key := sourceKey d
  if d.isTooDeep then .error .tooDeep
  else match r.sources.get? key with
  | some s => .ok (s, r)
  | none =>
    let numbered (fields : List (String × Json)) : Source × Registry :=
      let name := numberedName r.numbered
      let s : Source := ⟨name, .obj (("name", .str name) :: fields)⟩
      (s, { r with sources := r.sources.insert key s, numbered := r.numbered + 1 })
    match d.origin with
    | .name n => (r.namedSource n).map fun s => (s, { r with sources := r.sources.insert key s })
    | .values rows => .ok (numbered [("values", DataSpec.plainRows rows)])
    | .url address => .ok (numbered (fetchFields address d.format))

/-! ## Outputs -/

/-- Registers a pipeline under an output name. Its geometry signals count as extracted. -/
def register (r : Registry) (name : String) (p : Pipeline) : Registry :=
  { r with outputs := r.outputs.insert name p, signals := r.signals ++ p.signals }

/-- What tells the derived dataset of a pipeline from others. -/
def chainFingerprint (source : Source) (transforms : List Transform) : String :=
  Json.fingerprint (.arr [.str source.name,
    .strings (transforms.map fun t => (FlowStep.transform t).fingerprint)])

/-- Links one output. The first output with some chain of transforms owns the derived dataset; the
owners so far are found by the fingerprints of their chains. -/
def linkOutput (state : OrderedMap String String × Registry) (output : String × Pipeline) :
    OrderedMap String String × Registry :=
  let (owners, r) := state
  let (name, p) := output
  match p.source with
  | none => (owners, r)
  | some source =>
    match p.transforms with
    | [] => (owners, { r with concrete := r.concrete.insert name source.name })
    | transforms =>
      let chain := chainFingerprint source transforms
      match owners.get? chain with
      | some owner => (owners, { r with concrete := r.concrete.insert name owner })
      | none =>
        (owners.insert chain name,
          { r with
            concrete := r.concrete.insert name name
            derived := r.derived.insert name p })

/-- Maps every registered output to its concrete dataset. -/
def link (r : Registry) : Registry := (r.outputs.entries.foldl linkOutput (.empty, r)).2

/-- The concrete dataset of an output name; an unknown name stands for itself. -/
def concreteName (r : Registry) (name : String) : String := (r.concrete.get? name).getD name

/-- Whether a concrete dataset backs an output name. -/
def backs (r : Registry) (name : String) : Bool := r.concrete.contains name

/-- Whether a registered pipeline extracts a geometry signal. -/
def produces (r : Registry) (signal : String) : Bool := r.signals.contains signal

/-! ## Consultations -/

def note (r : Registry) (names : List String) : Registry :=
  { r with consulted := names.reverse ++ r.consulted }

/-- How often a dataset was consulted. -/
def count (r : Registry) (name : String) : Nat := r.consulted.count name

def isConsulted (r : Registry) (name : String) : Bool := r.consulted.contains name

/-- The consulted names with their counts. -/
def counts (r : Registry) : List (String × Nat) :=
  r.consulted.eraseDups.map fun name => (name, r.count name)

/-- The derived datasets that were consulted. -/
def wanted (r : Registry) : List (String × Pipeline) :=
  r.derived.entries.filter fun e => r.isConsulted e.1

/-- The names of the sources of the wanted derived datasets. -/
def neededSources (r : Registry) : List String :=
  r.wanted.filterMap fun e => e.2.source.map Source.name

/-- The datasets that are written out: consulted and needed roots, then consulted derived ones. -/
def emit (r : Registry) (assigned : Nat → String → String) : List DatasetDef :=
  (r.sources.values.filter fun s => r.isConsulted s.name || r.neededSources.contains s.name).map
    (fun s => .root s.dataset) ++
  r.wanted.filterMap fun (name, p) =>
    p.source.map fun s => .derived name s.name (p.transforms.flatMap (·.emit assigned))

/-! ## Fits -/

/-- The expression of a dataset's rows. -/
def rowsExpression (dataset : String) : String := "data('" ++ dataset ++ "')"

/-- The expression of a fit source that is backed by something. -/
def fitExpression? (r : Registry) : FitSource → Option String
  | .signal name _ => if r.produces name then some name else none
  | .output name => (r.concrete.get? name).map rowsExpression
  | .unusable _ => none

/-- The distinct expressions of the backed sources in the order of their first occurrence. -/
def fitExpressions (r : Registry) (sources : List FitSource) : List String :=
  (sources.filterMap r.fitExpression?).foldl (fun acc e => if e ∈ acc then acc else acc ++ [e]) []

/-- The datasets that the fit sources consult, with repetitions. -/
def fitConsultations (r : Registry) (sources : List FitSource) : List String :=
  sources.filterMap fun
    | .output name => r.concrete.get? name
    | _ => none

end Registry

end ChartLowering
