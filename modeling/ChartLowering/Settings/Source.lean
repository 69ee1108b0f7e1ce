import ChartLowering.Settings.Basic
import ChartLowering.Settings.Toml

/-
  Where settings are loaded from.

  The environment goes before the configuration file, and the file before the defaults. Without a
  given path two files of the working directory are tried in turn; the first that has a table to
  offer is taken. A file that cannot be read counts as absent.
-/

namespace ChartLowering.Settings

/-- The working directory: the texts of its readable files by path, and its directories. -/
structure Workspace where
  files : OrderedMap String String
  directories : List String

/-- The fields of the settings as they are named in tables. -/
def fieldNames : List String :=
  ["default_projection_type", "continuous_width", "continuous_height", "schema_url",
   "strict_datasets"]

/-- What the names of environment variables begin with. -/
def variablePrefix : String := "CHARTC_"

/-- The variables that are set and not empty, as a layer. -/
def environmentLayer (environment : OrderedMap String String) (start : String) : Layer :=
  ⟨fieldNames.filterMap fun field =>
    match environment.get? (start ++ field.toUpper) with
    | some v => if v.isEmpty then none else some (field, .text v)
    | none => none⟩

def fromEnvironment (s : Settings) (environment : OrderedMap String String) (start : String) :
    Except SettingsError Settings :=
  s.apply (environmentLayer environment start)

/-- The pieces of a path between slashes. -/
def pathPieces : List Char → List (List Char)
  | [] => [[]]
  | c :: rest =>
    if c = '/' then [] :: pathPieces rest
    else match pathPieces rest with
      | piece :: pieces => (c :: piece) :: pieces
      | [] => [[c]]

/-- The names on a path; a dot and an empty name stand for nothing. -/
def pathNames (path : String) : List String :=
  ((pathPieces path.toList).map String.ofList).filter fun name => name != "" && name != "."

namespace Workspace

/-- Whether there is a directory at a place. What holds a file or a directory is one itself. -/
def isDirectory (w : Workspace) (place : List String) : Bool :=
  place.isEmpty ||
    (w.directories.map pathNames ++ w.files.keys.map fun path => (pathNames path).dropLast).any
      (place.isPrefixOf ·)

/-- The place that names lead to. Two dots lead out of a directory, but not out of the working
directory. -/
def follow (w : Workspace) (place : List String) : List String → Option (List String)
  | [] => some place
  | name :: rest =>
    if !w.isDirectory place then none
    else if name = ".." then
      if place.isEmpty then none else follow w place.dropLast rest
    else follow w (place ++ [name]) rest

/-- The text of the file at a path, which begins at the working directory. -/
def text? (w : Workspace) (path : String) : Option String :=
  if path.toList.head? = some '/' then none
  else do
    let place ← w.follow [] (pathNames path)
    let file ← w.files.entries.find? fun e => pathNames e.1 = place
    some file.2

end Workspace

/-- What there is where nothing is offered. -/
def nothing : Toml.Value := .table []

/-- What a file offers that belongs to a whole project, in which each tool has a table. -/
def projectTable (data : Toml.Table) : Except SettingsError Toml.Value :=
  match data.get? "tool" with
  | none => .ok nothing
  | some (.table tools) =>
    match OrderedMap.find? "chartc" tools with
    | none => .ok nothing
    | some (.table table) => .ok ((OrderedMap.find? "compile" table).getD nothing)
    | some _ => .error .notATable
  | some _ => .ok nothing

/-- What a file of its own offers: a table for compiles, or the whole file. -/
def ownTable (data : Toml.Table) : Toml.Value :=
  match data.get? "compile" with
  | some (.table table) => .table table
  | _ => .table data.entries

/-- What the configuration file at a path offers; none if there is no readable file. -/
def fileTable? (w : Workspace) (path : String) : Except SettingsError (Option Toml.Value) :=
  let names := pathNames path
  match (w.text? path).bind Toml.read? with
  | none => .ok none
  | some data =>
    if names.getLast? = some "pyproject.toml" then (projectTable data).map some
    else .ok (some (ownTable data))

/-- The first substantial offer, or else the last offer. -/
def selectTable (w : Workspace) (latest : Toml.Value) :
    List String → Except SettingsError Toml.Value
  | [] => .ok latest
  | path :: rest => do
    match ← fileTable? w path with
    | none => selectTable w latest rest
    | some t => if t.isSubstantial then return t else selectTable w t rest

/-- The files that are tried: the given one, or the two that are looked for. -/
def candidates : Option String → List String
  | some path => [path]
  | none => ["chartc.toml", "pyproject.toml"]

def Given.ofToml : Toml.Value → Given
  | .str s => .text s
  | .num n => .number n
  | .bool b => .truth b
  | .moment _ | .arr _ | .table _ => .other

/-- The layer that a file offers. Only a table has fields to take. -/
def Layer.ofToml : Toml.Value → Layer
  | .table fields => OrderedMap.mapValues Given.ofToml ⟨fields⟩
  | _ => .empty

def fromFiles (w : Workspace) (path : Option String) : Except SettingsError Settings := do
  standard.apply (.ofToml (← selectTable w nothing (candidates path)))

/-- The environment over the configuration file over the defaults. -/
def load (environment : OrderedMap String String) (w : Workspace) (path : Option String) :
    Except SettingsError Settings := do
  (← fromFiles w path).fromEnvironment environment variablePrefix

end ChartLowering.Settings
