import ChartLowering.Error
import ChartLowering.Json.Basic

/-
  Reading with located issues.

  A reading of a value succeeds, or it lists every issue that it found, each with its place inside
  the value. Readings of independent parts are combined by `Check.ap`, which keeps the issues of
  both sides in order, so a faulty specification is reported whole.
-/

namespace ChartLowering.Schema

/-- One step into a value. -/
inductive Step where
  | key (k : String)
  | index (i : Nat)
deriving Repr, DecidableEq

/-- What is wrong with a value. -/
inductive Fault where
  /-- A definition with fields of its own was expected. -/
  | notARecord
  /-- A required field is absent. -/
  | missing
  | notAString
  | notAList
  /-- An object with any keys was expected. -/
  | notAnObject
  | notANumber
  /-- A text that should be a number is none. -/
  | notNumeric
  /-- A name is not among those of an enumeration. -/
  | unknownMember
  /-- A value is not among the few that are allowed. -/
  | notTheLiteral
  /-- A key is not declared. -/
  | extraKey
  /-- No key decides which kind of view a value is. -/
  | noView
  | refused (cause : SpecError)
deriving Repr, DecidableEq

/-- A fault and its place. -/
structure Issue where
  place : List Step
  fault : Fault
deriving Repr, DecidableEq

/-- The result of a reading: a value, or all issues. -/
inductive Check (α : Type) where
  | valid (a : α)
  | invalid (issues : List Issue)
deriving Repr

namespace Check

variable {α β : Type}

def map (f : α → β) : Check α → Check β
  | .valid a => .valid (f a)
  | .invalid issues => .invalid issues

/-- Applies a read function to a read argument; the issues of both are kept. -/
def ap : Check (α → β) → Check α → Check β
  | .valid f, .valid a => .valid (f a)
  | .valid _, .invalid issues => .invalid issues
  | .invalid issues, .valid _ => .invalid issues
  | .invalid issues, .invalid more => .invalid (issues ++ more)

instance : Applicative Check where
  pure := .valid
  map f c := map f c
  seq f c := ap f (c ())

/-- Goes on only from a valid reading. -/
def andThen (c : Check α) (f : α → Check β) : Check β :=
  match c with
  | .valid a => f a
  | .invalid issues => .invalid issues

def fail (fault : Fault) : Check α := .invalid [⟨[], fault⟩]

/-- Moves the issues of a part to the part's place. -/
def under (step : Step) : Check α → Check α
  | .valid a => .valid a
  | .invalid issues => .invalid (issues.map fun i => ⟨step :: i.place, i.fault⟩)

def underKey (k : String) (c : Check α) : Check α := c.under (.key k)

def toOption : Check α → Option α
  | .valid a => some a
  | .invalid _ => none

def issues : Check α → List Issue
  | .valid _ => []
  | .invalid issues => issues

/-- The two readings of a value that has to be one of two things. The issues of both ways are
reported, each under the label of its way. -/
def either (left right : String) (a b : Check α) : Check α :=
  match a, b with
  | .valid x, _ => .valid x
  | _, .valid y => .valid y
  | a, b => .invalid ((a.underKey left).issues ++ (b.underKey right).issues)

/-! What it takes to be valid -/

@[simp] theorem map_eq_valid_iff {f : α → β} {c : Check α} {b : β} :
    f <$> c = .valid b ↔ ∃ a, c = .valid a ∧ f a = b := by
  cases c <;> simp [Functor.map, Check.map]

@[simp] theorem seq_eq_valid_iff {f : Check (α → β)} {c : Check α} {b : β} :
    f <*> c = .valid b ↔ ∃ g a, f = .valid g ∧ c = .valid a ∧ g a = b := by
  cases f <;> cases c <;> simp [Seq.seq, Check.ap]

@[simp] theorem under_eq_valid_iff {step : Step} {c : Check α} {a : α} :
    c.under step = .valid a ↔ c = .valid a := by
  cases c <;> simp [under]

@[simp] theorem underKey_eq_valid_iff {k : String} {c : Check α} {a : α} :
    c.underKey k = .valid a ↔ c = .valid a :=
  under_eq_valid_iff

theorem andThen_eq_valid_iff {c : Check α} {f : α → Check β} {b : β} :
    c.andThen f = .valid b ↔ ∃ a, c = .valid a ∧ f a = .valid b := by
  cases c <;> simp [andThen]

end Check

/-! ## Readings of plain values -/

/-- A way to read values. -/
abbrev Reading (α : Type) := Json → Check α

variable {α : Type}

def anything : Reading Json := .valid

def readString : Reading String
  | .str s => .valid s
  | _ => .fail .notAString

def readObject : Reading Fields
  | .obj fs => .valid ⟨fs⟩
  | _ => .fail .notAnObject

/-- Null, or what the reading accepts. -/
def nullable (read : Reading α) : Reading (Option α)
  | .null => .valid none
  | j => (read j).map some

/-- Reads the items from position `i` on. -/
def readItems (read : Reading α) (i : Nat) : List Json → Check (List α)
  | [] => .valid []
  | j :: rest => List.cons <$> (read j).under (.index i) <*> readItems read (i + 1) rest

def readList (read : Reading α) : Reading (List α)
  | .arr items => readItems read 0 items
  | _ => .fail .notAList

/-- Rows given as an array of objects, or as a table. -/
def readRows : Reading (List Fields)
  | .table rows => readItems readObject 0 rows
  | j => readList readObject j

/-- Reads every value of a list of entries. -/
def readEntries (read : Reading α) : List (String × Json) → Check (List (String × α))
  | [] => .valid []
  | (k, j) :: rest =>
    (fun a l => (k, a) :: l) <$> (read j).underKey k <*> readEntries read rest

/-- One of the members of an enumeration, by name. -/
def readMember (ofName? : String → Option α) : Reading α
  | .str s => match ofName? s with
    | some a => .valid a
    | none => .fail .unknownMember
  | _ => .fail .unknownMember

/-! ## Fields of objects -/

def requiredField (fs : Fields) (k : String) (read : Reading α) : Check α :=
  (match fs.get? k with
    | some j => read j
    | none => .fail .missing).underKey k

def optionalField (fs : Fields) (k : String) (dflt : α) (read : Reading α) : Check α :=
  (match fs.get? k with
    | some j => read j
    | none => .valid dflt).underKey k

/-- A field that is null unless given. -/
def nullableField (fs : Fields) (k : String) (read : Reading α) : Check (Option α) :=
  optionalField fs k none (nullable read)

/-- Refuses keys that are not declared. -/
def noExtraKeys (declared : List String) (fs : Fields) : Check Unit :=
  match (fs.keys.filter fun k => !declared.contains k) with
  | [] => .valid ()
  | extra => .invalid (extra.map fun k => ⟨[.key k], .extraKey⟩)

/-- The fields with keys that are not declared. -/
def extraFields (declared : List String) (fs : Fields) : Fields :=
  fs.filterKeys fun k => !declared.contains k

/-- The reading of an object by its fields. -/
def readRecord (read : Fields → Check α) : Reading α
  | .obj fs => read ⟨fs⟩
  | _ => .fail .notARecord

end ChartLowering.Schema
