import ChartLowering.Component.Merge
import ChartLowering.Proofs.Json.Equality

/-
  What a reduction keeps.

  The representative of a reduction is one of the reduced components, and whatever relates the side
  that a merge keeps to the other one relates it to all of them (`related_of_reduce`). So it says what
  every one of them said: a component that sets a compared property is matched on all of them
  (`keeps_of_reduce`). A merge that prefers the second side does so only where the first side sets
  nothing at all, which is why the running representative may change without losing what was said
  before.
-/

namespace ChartLowering

/-- Whether one property layer says what another one says about some properties: the other one sets
none of them, or both set the same ones to matching values. -/
def Fields.Keeps (properties : List String) (kept given : Fields) : Prop :=
  (∀ p ∈ properties, given.get? p = none) ∨
    ∀ p ∈ properties, Json.Matches (kept.get? p) (given.get? p)

namespace Fields.Keeps

variable {properties : List String} {a b c : Fields}

theorem refl (properties : List String) (a : Fields) : Keeps properties a a :=
  Or.inr fun p _ => Json.Matches.refl (a.get? p)

theorem trans (hab : Keeps properties a b) (hbc : Keeps properties b c) : Keeps properties a c := by
  rcases hbc with hc | hbc
  · exact Or.inl hc
  · rcases hab with hb | hab
    · exact Or.inl fun p hp => (hbc p hp).eq_none_iff.1 (hb p hp)
    · exact Or.inr fun p hp => (hab p hp).trans (hbc p hp)

theorem of_isEmpty (properties : List String) (kept : Fields) {given : Fields}
    (h : given.isEmpty = true) : Keeps properties kept given := by
  obtain ⟨l⟩ := given
  obtain rfl : l = [] := List.isEmpty_iff.1 h
  exact Or.inl fun p _ => rfl

end Fields.Keeps

namespace Component

variable {properties : List String} {α : Type} {component : α → Component}

theorem keeps_of_agreeOn {a b : Fields} (h : agreeOn properties a b = true) :
    Fields.Keeps properties a b := by
  unfold agreeOn at h
  rw [List.all_eq_true] at h
  exact Or.inr fun p hp => Or.inr (h p hp)

/-- A merge that keeps the first side keeps what the second one says. -/
theorem keeps_of_merge?_first {a b : Component} (h : merge? properties a b = some .first) :
    Fields.Keeps properties a.explicit b.explicit := by
  unfold merge? at h
  split at h
  · cases h
  · split at h
    · rename_i hagree
      exact keeps_of_agreeOn hagree
    · split at h
      · cases h
      · split at h
        · rename_i hempty
          exact Fields.Keeps.of_isEmpty properties _ hempty
        · cases h

/-- A merge that keeps the second side keeps what the first one says. -/
theorem keeps_of_merge?_second {a b : Component} (h : merge? properties a b = some .second) :
    Fields.Keeps properties b.explicit a.explicit := by
  unfold merge? at h
  split at h
  · cases h
  · split at h
    · cases h
    · split at h
      · rename_i hempty
        exact Fields.Keeps.of_isEmpty properties _ hempty
      · split at h <;> cases h

/-- Only components that both fill an area, or both fill none, merge. -/
theorem size_eq_none_iff_of_merge? {a b : Component} {side : Side}
    (h : merge? properties a b = some side) : a.size = none ↔ b.size = none := by
  unfold merge? at h
  split at h
  · cases h
  · rename_i hsame
    unfold sameSize at hsame
    cases ha : a.size <;> cases hb : b.size <;> simp_all [Json.sameOption]

/-- Components that merge fill the same area, where one of them is told to by signals. -/
theorem size_eq_iff_of_merge? {a b : Component} {side : Side}
    (h : merge? properties a b = some side) (names : List String) :
    a.size = some (names.map Json.signalRef) ↔ b.size = some (names.map Json.signalRef) := by
  unfold merge? at h
  split at h
  · cases h
  · rename_i hsame
    rw [Bool.not_eq_true', Bool.not_eq_false] at hsame
    unfold sameSize at hsame
    constructor
    · intro ha
      rw [ha] at hsame
      cases hb : b.size with
      | none => rw [hb] at hsame; cases hsame
      | some js =>
        rw [hb] at hsame
        rw [Json.sameItems_signalRefs (Or.inl hsame)]
    · intro hb
      rw [hb] at hsame
      cases ha : a.size with
      | none => rw [ha] at hsame; cases hsame
      | some js =>
        rw [ha] at hsame
        rw [Json.sameItems_signalRefs (Or.inr hsame)]

theorem mem_of_reduceFrom {items : List α} {kept r : α}
    (h : reduceFrom component properties kept items = some r) : r = kept ∨ r ∈ items := by
  induction items generalizing kept with
  | nil => exact Or.inl (Option.some.inj h).symm
  | cons b rest ih =>
    rw [reduceFrom] at h
    split at h
    · exact (ih h).imp id (List.mem_cons_of_mem b)
    · exact Or.inr (List.mem_cons.2 (ih h))
    · cases h

section Images

/-- The outcome of a reduction with another item in place of the kept one. -/
def Reduction.map {β : Type} (g : α → β) : Reduction α → Reduction β
  | .conflict => .conflict
  | .nothing => .nothing
  | .kept r => .kept (g r)

variable {β : Type} {g : α → β} {image : β → Component}
  (h : ∀ a b, merge? properties (image (g a)) (image (g b)) =
    merge? properties (component a) (component b))

include h

theorem reduceFrom_map (kept : α) (items : List α) :
    reduceFrom image properties (g kept) (items.map g) =
      (reduceFrom component properties kept items).map g := by
  induction items generalizing kept with
  | nil => rfl
  | cons b rest ih =>
    rw [List.map_cons, reduceFrom, reduceFrom, h]
    cases merge? properties (component kept) (component b) with
    | none => rfl
    | some side =>
      cases side with
      | first => exact ih kept
      | second => exact ih b

/-- A reduction sees of its items only what their merging depends on. -/
theorem reduce_map (items : List α) :
    reduce image properties (items.map g) = (reduce component properties items).map g := by
  cases items with
  | nil => rfl
  | cons a rest =>
    rw [List.map_cons, reduce, reduce, reduceFrom_map h]
    cases reduceFrom component properties a rest <;> rfl

end Images

section Relations

variable {R : Component → Component → Prop} (refl : ∀ a, R a a)
  (trans : ∀ {a b c}, R a b → R b c → R a c)
  (first : ∀ {a b}, merge? properties a b = some .first → R a b)
  (second : ∀ {a b}, merge? properties a b = some .second → R b a)

include refl trans first second

/-- The running representative only ever gives way to one that is related to it. -/
theorem related_of_reduceFrom {items : List α} {kept r : α}
    (h : reduceFrom component properties kept items = some r) :
    ∀ a, a = kept ∨ a ∈ items → R (component r) (component a) := by
  induction items generalizing kept with
  | nil =>
    obtain rfl : kept = r := Option.some.inj h
    rintro a (rfl | ha)
    · exact refl _
    · exact absurd ha List.not_mem_nil
  | cons b rest ih =>
    rw [reduceFrom] at h
    split at h
    · rename_i hmerge
      rintro a (rfl | ha)
      · exact ih h a (Or.inl rfl)
      · rcases List.mem_cons.1 ha with rfl | ha
        · exact trans (ih h kept (Or.inl rfl)) (first hmerge)
        · exact ih h a (Or.inr ha)
    · rename_i hmerge
      rintro a (rfl | ha)
      · exact trans (ih h b (Or.inl rfl)) (second hmerge)
      · exact ih h a (List.mem_cons.1 ha)
    · cases h

/-- What relates the side that a merge keeps to the other one relates the representative of a
reduction to all that were reduced. -/
theorem related_of_reduce {items : List α} {r : α}
    (h : reduce component properties items = .kept r) :
    ∀ a ∈ items, R (component r) (component a) := by
  cases items with
  | nil => cases h
  | cons b rest =>
    rw [reduce] at h
    split at h
    · rename_i r' hr
      obtain rfl : r' = r := Reduction.kept.inj h
      exact fun a ha => related_of_reduceFrom refl trans first second hr a (List.mem_cons.1 ha)
    · cases h

end Relations

/-- The representative is one of the items. -/
theorem mem_of_reduce {items : List α} {r : α} (h : reduce component properties items = .kept r) :
    r ∈ items := by
  cases items with
  | nil => cases h
  | cons b rest =>
    rw [reduce] at h
    split at h
    · rename_i r' hr
      obtain rfl : r' = r := Reduction.kept.inj h
      exact List.mem_cons.2 (mem_of_reduceFrom hr)
    · cases h

/-- The representative keeps what every item says. -/
theorem keeps_of_reduce {items : List α} {r : α}
    (h : reduce component properties items = .kept r) :
    ∀ a ∈ items, Fields.Keeps properties (component r).explicit (component a).explicit :=
  related_of_reduce (R := fun a b => Fields.Keeps properties a.explicit b.explicit)
    (fun a => Fields.Keeps.refl properties a.explicit) Fields.Keeps.trans keeps_of_merge?_first
    keeps_of_merge?_second h

/-- The representative fills an area if and only if every item does. -/
theorem size_eq_none_iff_of_reduce {items : List α} {r : α}
    (h : reduce component properties items = .kept r) :
    ∀ a ∈ items, (component r).size = none ↔ (component a).size = none :=
  related_of_reduce (R := fun a b => a.size = none ↔ b.size = none) (fun _ => Iff.rfl) Iff.trans
    size_eq_none_iff_of_merge? (fun hmerge => (size_eq_none_iff_of_merge? hmerge).symm) h

/-- The representative fills the same area as every item, where that is given by signals. -/
theorem size_eq_iff_of_reduce {items : List α} {r : α}
    (h : reduce component properties items = .kept r) (names : List String) :
    ∀ a ∈ items, (component r).size = some (names.map Json.signalRef) ↔
      (component a).size = some (names.map Json.signalRef) :=
  related_of_reduce
    (R := fun a b => a.size = some (names.map Json.signalRef) ↔ b.size = some (names.map Json.signalRef))
    (fun _ => Iff.rfl) Iff.trans (fun hmerge => size_eq_iff_of_merge? hmerge names)
    (fun hmerge => (size_eq_iff_of_merge? hmerge names).symm) h

end Component

end ChartLowering
