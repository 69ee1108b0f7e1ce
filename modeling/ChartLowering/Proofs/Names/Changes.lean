import ChartLowering.NameScope

/-
  Scopes after any changes.

  A change is about one name of one kind. What is assigned to a name after a change depends on what
  was assigned to it before and on nothing else (`get?_change`), so each name can be followed through
  the changes by itself. Nothing is assigned to it until it is seeded (`follow_none`); from then on it
  is the target of the latest renaming, or itself, whatever is seeded again (`follow_some`). A change
  that finds nothing to do for a name (`Idle`) can be left out (`assigned_after_changes`).
-/

namespace ChartLowering

/-- A change of a scope. -/
inductive NameChange where
  | seed (kind : NameKind) (name : String)
  | rename (kind : NameKind) (name target : String)
deriving Repr, DecidableEq

namespace NameScope

def change (s : NameScope) : NameChange → NameScope
  | .seed kind name => s.seed kind name
  | .rename kind name target => s.rename kind name target

/-- The scope that changes make of an empty one. -/
def ofChanges (changes : List NameChange) : NameScope := changes.foldl change empty

end NameScope

namespace NameChange

/-- The name that a change is about, with its kind. -/
def subject : NameChange → NameKind × String
  | .seed kind name => (kind, name)
  | .rename kind name _ => (kind, name)

/-- The target that a change renames a name to. -/
def target? (kind : NameKind) (name : String) : NameChange → Option String
  | .seed _ _ => none
  | .rename k n target => if (k, n) = (kind, name) then some target else none

/-- What a change makes of what is assigned to a name. -/
def effect (kind : NameKind) (name : String) (assigned : Option String) : NameChange → Option String
  | .seed k n => if (k, n) = (kind, name) then assigned.or (some n) else assigned
  | .rename k n target =>
    if (k, n) = (kind, name) then assigned.map fun _ => target else assigned

/-- What changes make, one after the other, of what is assigned to a name. -/
def follow (kind : NameKind) (name : String) (assigned : Option String)
    (changes : List NameChange) : Option String :=
  changes.foldl (effect kind name) assigned

/-- Whether a change after some others has nothing to do for a name: it is about another one, it
renames what was not seeded, or it seeds what was. -/
inductive Idle (kind : NameKind) (name : String) (before : List NameChange) : NameChange → Prop where
  | other {c : NameChange} : c.subject ≠ (kind, name) → Idle kind name before c
  | unseeded (target : String) : .seed kind name ∉ before →
      Idle kind name before (.rename kind name target)
  | reseeded : .seed kind name ∈ before → Idle kind name before (.seed kind name)

variable {kind : NameKind} {name : String} {c : NameChange} {before changes : List NameChange}

/-! ## One name -/

theorem effect_of_other (h : c.subject ≠ (kind, name)) (assigned : Option String) :
    effect kind name assigned c = assigned := by
  cases c with
  | seed k n => exact if_neg h
  | rename k n target => exact if_neg h

/-- A name that stands for something stands for a target as soon as it is renamed. -/
theorem effect_some (assigned : String) (c : NameChange) :
    effect kind name (some assigned) c = some ((c.target? kind name).getD assigned) := by
  cases c with
  | seed k n => exact ite_self (some assigned)
  | rename k n target =>
    rw [effect, target?]
    split <;> rfl

/-- Nothing is assigned to a name that is not seeded. -/
theorem follow_none (h : .seed kind name ∉ changes) : follow kind name none changes = none := by
  induction changes with
  | nil => rfl
  | cons c rest ih =>
    rw [List.mem_cons, not_or] at h
    have hstep : effect kind name none c = none := by
      cases c with
      | seed k n =>
        refine if_neg fun hkn => h.1 ?_
        obtain ⟨rfl, rfl⟩ := Prod.mk.inj hkn
        rfl
      | rename k n target => exact ite_self none
    show follow kind name (effect kind name none c) rest = none
    rw [hstep]
    exact ih h.2

/-- What is assigned to a name is replaced by the targets of its renamings, one after the other. -/
theorem follow_some (assigned : String) (changes : List NameChange) :
    follow kind name (some assigned) changes =
      some ((changes.filterMap (target? kind name)).getLast?.getD assigned) := by
  induction changes generalizing assigned with
  | nil => rfl
  | cons c rest ih =>
    show follow kind name (effect kind name (some assigned) c) rest = _
    rw [effect_some, ih]
    cases htarget : c.target? kind name with
    | none => rw [List.filterMap_cons_none htarget, Option.getD_none]
    | some target =>
      rw [List.filterMap_cons_some htarget, List.getLast?_cons, Option.getD_some, Option.getD_some]

end NameChange

namespace NameScope

open NameChange

variable {kind : NameKind} {name : String} {before after changes : List NameChange}

/-! ## The names of a scope -/

/-- What acts on one name of a map acts on one name of a scope. -/
theorem get?_modify {f : NameMap → NameMap} {n : String} (g : Option String → Option String)
    (hf : ∀ m j, (f m).get? j = if j = n then g (m.get? n) else m.get? j) (s : NameScope)
    (k kind : NameKind) (name : String) :
    (s.modify k f).get? kind name =
      if (k, n) = (kind, name) then g (s.get? kind name) else s.get? kind name := by
  unfold get?
  rw [names_modify]
  by_cases hkind : kind = k
  · subst hkind
    rw [if_pos rfl, hf]
    by_cases hname : name = n
    · subst hname
      rw [if_pos rfl, if_pos rfl]
    · rw [if_neg hname, if_neg fun h => hname (Prod.mk.inj h).2.symm]
  · rw [if_neg hkind, if_neg fun h => hkind (Prod.mk.inj h).1.symm]

/-- A change acts on each name by itself. -/
theorem get?_change (s : NameScope) (c : NameChange) (kind : NameKind) (name : String) :
    (s.change c).get? kind name = c.effect kind name (s.get? kind name) := by
  cases c with
  | seed k n => exact get?_modify (·.or (some n)) (fun m => NameMap.get?_seed m n) s k kind name
  | rename k n target =>
    exact get?_modify (Option.map fun _ => target) (fun m => NameMap.get?_rename m n target) s k
      kind name

theorem get?_foldl_change (s : NameScope) (changes : List NameChange) :
    (changes.foldl change s).get? kind name = follow kind name (s.get? kind name) changes := by
  induction changes generalizing s with
  | nil => rfl
  | cons c rest ih =>
    rw [List.foldl_cons, ih, get?_change]
    rfl

theorem get?_ofChanges (changes : List NameChange) (kind : NameKind) (name : String) :
    (ofChanges changes).get? kind name = follow kind name none changes := by
  have hempty : empty.get? kind name = none := by cases kind <;> rfl
  rw [ofChanges, get?_foldl_change, hempty]

theorem get?_ofChanges_append (before after : List NameChange) :
    (ofChanges (before ++ after)).get? kind name =
      follow kind name ((ofChanges before).get? kind name) after := by
  rw [get?_ofChanges, get?_ofChanges, follow, List.foldl_append]
  rfl

/-- A name that was first seeded after some changes stands for the target of its last renaming since
then, or for itself. -/
theorem get?_ofChanges_seeded (h : .seed kind name ∉ before) (after : List NameChange) :
    (ofChanges (before ++ .seed kind name :: after)).get? kind name =
      some ((after.filterMap (target? kind name)).getLast?.getD name) := by
  rw [get?_ofChanges_append, get?_ofChanges, follow_none h]
  have hseeded : effect kind name none (.seed kind name) = some name := if_pos rfl
  show follow kind name (effect kind name none (.seed kind name)) after = _
  rw [hseeded, follow_some]

theorem get?_ofChanges_eq_none_iff (changes : List NameChange) :
    (ofChanges changes).get? kind name = none ↔ .seed kind name ∉ changes := by
  constructor
  · intro hnone hmem
    obtain ⟨before, after, rfl, hbefore⟩ := List.eq_append_cons_of_mem hmem
    rw [get?_ofChanges_seeded hbefore] at hnone
    cases hnone
  · intro h
    rw [get?_ofChanges, follow_none h]

theorem effect_of_idle {c : NameChange} (h : Idle kind name before c) :
    c.effect kind name ((ofChanges before).get? kind name) = (ofChanges before).get? kind name := by
  cases h with
  | other hother => exact effect_of_other hother _
  | unseeded target hbefore =>
    rw [(get?_ofChanges_eq_none_iff before).2 hbefore]
    exact ite_self none
  | reseeded hbefore =>
    obtain ⟨assigned, hassigned⟩ :=
      Option.ne_none_iff_exists'.1 (mt (get?_ofChanges_eq_none_iff before).1 (not_not_intro hbefore))
    rw [hassigned]
    exact ite_self _

/-- Whatever changes are made of an empty scope, a name is absent if and only if it was not seeded,
and a name that was seeded stands for the target of its last renaming after it was first seeded, or
for itself. Changes of other names and of other kinds, renamings of what is not seeded yet and
seedings of what is do nothing to it. -/
theorem assigned_after_changes (changes : List NameChange) (kind : NameKind) (name : String) :
    ((ofChanges changes).get? kind name = none ↔ .seed kind name ∉ changes) ∧
    (∀ before after, changes = before ++ .seed kind name :: after → .seed kind name ∉ before →
      (ofChanges changes).get? kind name =
        some ((after.filterMap (target? kind name)).getLast?.getD name)) ∧
    ∀ before c after, changes = before ++ c :: after → Idle kind name before c →
      (ofChanges changes).get? kind name = (ofChanges (before ++ after)).get? kind name := by
  refine ⟨get?_ofChanges_eq_none_iff changes, ?_, ?_⟩
  · rintro before after rfl hbefore
    exact get?_ofChanges_seeded hbefore after
  · rintro before c after rfl hidle
    rw [get?_ofChanges_append, get?_ofChanges_append]
    show follow kind name (c.effect kind name ((ofChanges before).get? kind name)) after = _
    rw [effect_of_idle hidle]

/-- The scale is renamed before it is seeded, then to `shared`, and then seeded again; the projection
of that name is not seeded. -/
def scaleChanges : List NameChange :=
  [.rename .scale "color" "early", .seed .scale "color", .rename .projection "color" "map",
    .rename .scale "color" "layer_0_color", .rename .scale "color" "shared", .seed .scale "color"]

/-- The scale has its last name, also without the second seeding; the projection has none. -/
theorem assigned_after_scaleChanges :
    (ofChanges scaleChanges).get? .scale "color" = some "shared" ∧
      (ofChanges scaleChanges.dropLast).get? .scale "color" = some "shared" ∧
      (ofChanges scaleChanges).get? .projection "color" = none := by
  obtain ⟨-, htarget, hidle⟩ := assigned_after_changes scaleChanges .scale "color"
  have hlast := htarget [.rename .scale "color" "early"] _ rfl (by decide)
  refine ⟨hlast, ?_, (assigned_after_changes scaleChanges .projection "color").1.2 (by decide)⟩
  have hdropped := hidle scaleChanges.dropLast (.seed .scale "color") [] rfl (.reseeded (by decide))
  rw [← List.append_nil scaleChanges.dropLast, ← hdropped, hlast]
  rfl

end NameScope

end ChartLowering
