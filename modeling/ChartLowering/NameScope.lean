import ChartLowering.Grammar
import ChartLowering.OrderedMap

/-
  Name scopes.

  Every view owns three maps from logical names to the names that are assigned to them: signals,
  scales and projections. A name is seeded when it is created and stands for itself; when the thing
  that it names is merged into the parent view the name is renamed. Seen from a view, a name is
  resolved through the scopes of the view and of all views around it, innermost first.
-/

namespace ChartLowering

/-- Logical names and the names assigned to them. -/
abbrev NameMap := OrderedMap String String

namespace NameMap

/-- Enters a name that stands for itself; a name that is already there is left alone. -/
def seed (m : NameMap) (name : String) : NameMap := m.insertIfNew name name

/-- Assigns another name to a name that was seeded. -/
def rename (m : NameMap) (name target : String) : NameMap := m.replace name target

/-- The name assigned to a name, which is itself if it is unknown. -/
def assigned (m : NameMap) (name : String) : String := (m.get? name).getD name

/-- Seeding names a name after itself unless it was seeded before. -/
theorem get?_seed (m : NameMap) (name n : String) :
    (m.seed name).get? n = if n = name then (m.get? name).or (some name) else m.get? n :=
  OrderedMap.get?_insertIfNew m name n name

/-- Renaming reaches only a name that was seeded. -/
theorem get?_rename (m : NameMap) (name target n : String) :
    (m.rename name target).get? n =
      if n = name then (m.get? name).map (fun _ => target) else m.get? n :=
  OrderedMap.get?_replace m name n target

end NameMap

/-- The three name maps of a view. -/
structure NameScope where
  signals : NameMap
  scales : NameMap
  projections : NameMap
deriving Repr, DecidableEq

namespace NameScope

def empty : NameScope := ⟨.empty, .empty, .empty⟩

def names (s : NameScope) : NameKind → NameMap
  | .signal => s.signals
  | .scale => s.scales
  | .projection => s.projections

def modify (s : NameScope) (kind : NameKind) (f : NameMap → NameMap) : NameScope :=
  match kind with
  | .signal => { s with signals := f s.signals }
  | .scale => { s with scales := f s.scales }
  | .projection => { s with projections := f s.projections }

def seed (s : NameScope) (kind : NameKind) (name : String) : NameScope :=
  s.modify kind (·.seed name)

def rename (s : NameScope) (kind : NameKind) (name target : String) : NameScope :=
  s.modify kind (·.rename name target)

def get? (s : NameScope) (kind : NameKind) (name : String) : Option String :=
  (s.names kind).get? name

def has (s : NameScope) (kind : NameKind) (name : String) : Bool := (s.names kind).contains name

/-- A name as seen through nested scopes, the innermost first. -/
def lookup (scopes : List NameScope) (kind : NameKind) (name : String) : String :=
  scopes.foldl (fun current s => (s.names kind).assigned current) name

theorem names_modify (s : NameScope) (kind other : NameKind) (f : NameMap → NameMap) :
    (s.modify kind f).names other = if other = kind then f (s.names other) else s.names other := by
  cases kind <;> cases other <;> rfl

end NameScope

end ChartLowering
