import ChartLowering.Json.Plain
import ChartLowering.Schema.Check

/-
  Where the rows of a view come from.

  Data are given inline, by an address, or by the name of a declared or externally provided dataset;
  by exactly one of these. A table may stand for the whole definition or for its rows. What is
  handed on of a definition is plain.
-/

namespace ChartLowering

/-- The source of some rows. -/
inductive DataOrigin where
  | values (rows : List Fields)
  | url (address : String)
  | name (dataset : String)
deriving Repr, DecidableEq

/-- A data definition. The format says how fetched data are written. -/
structure DataSpec where
  origin : DataOrigin
  format : Option Fields
deriving Repr, DecidableEq

namespace DataSpec

def name? (d : DataSpec) : Option String :=
  match d.origin with
  | .name n => some n
  | _ => none

def rowsJson (rows : List Fields) : Json := .arr (rows.map .ofFields)

/-- The rows as they are handed on. -/
def plainRows (rows : List Fields) : Json := (rowsJson rows).plain

/-- The definition as it is handed on, with all its fields, the absent ones null. -/
def toJson (d : DataSpec) : Json :=
  let ofFormat := match d.format with
    | some fs => (Json.ofFields fs).plain
    | none => .null
  let (values, url, name) := match d.origin with
    | .values rows => (plainRows rows, .null, .null)
    | .url address => (.null, .str address, .null)
    | .name n => (.null, .null, .str n)
  .obj [("values", values), ("url", url), ("format", ofFormat), ("name", name)]

/-- The depth of the deepest cell or format property. -/
def depth (d : DataSpec) : Nat :=
  let cells := match d.origin with
    | .values rows => (rows.map fun row => Json.depthFields row.entries).foldr max 0
    | _ => 0
  max cells (Json.depthFields (d.format.getD .empty).entries)

/-- Whether the definition is nested too deeply to be handed on. -/
def isTooDeep (d : DataSpec) : Bool := Json.depthLimit < d.depth

end DataSpec

namespace Schema

def dataKeys : List String := ["values", "url", "format", "name"]

/-- The one source among those that were given. -/
def dataOrigin (values : Option (List Fields)) (url name : Option String) : Check DataOrigin :=
  match values, url, name with
  | some rows, none, none => .valid (.values rows)
  | none, some address, none => .valid (.url address)
  | none, none, some n => .valid (.name n)
  | _, _, _ =>
    let given := (if values.isSome then ["values"] else []) ++
      (if url.isSome then ["url"] else []) ++ (if name.isSome then ["name"] else [])
    .fail (.refused (.notOneSource given))

def readDataFields (fs : Fields) : Check DataSpec :=
  let parts := (fun values url format name () => (values, url, format, name)) <$>
    nullableField fs "values" readRows <*>
    nullableField fs "url" readString <*>
    nullableField fs "format" readObject <*>
    nullableField fs "name" readString <*>
    noExtraKeys dataKeys fs
  parts.andThen fun (values, url, format, name) =>
    (dataOrigin values url name).map fun origin => ⟨origin, format⟩

def readData : Reading DataSpec
  | .table rows => (readItems readObject 0 rows).map fun rows => ⟨.values rows, none⟩
  | j => readRecord readDataFields j

end Schema

end ChartLowering
