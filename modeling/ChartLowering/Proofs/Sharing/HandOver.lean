import ChartLowering.Proofs.Sharing.Fill
import Mathlib.Data.List.Induction

/-
  Children that hand over their components.

  A child hands its component of a slot over to its parent: the component is marked as merged, and
  its name is assigned the name of the parent's component. Slots do not get in each other's way,
  because a child's components of one family have different names: after any number of slots were
  handed over, exactly the components of those slots are merged, and exactly their names are
  assigned others (`get?_handOverAll`, `get?_names_handOverAll`). As it was made, the child is still
  the same (`asMade_handOverAll`).
-/

namespace ChartLowering

/-- A component that was merged into another one. -/
def Component.tombstone (k : Component) : Component := { k with merged := true }

@[simp] theorem Component.unmerged_tombstone (k : Component) : k.tombstone.unmerged = k.unmerged :=
  rfl

theorem Component.tombstone_of_merged {k : Component} (h : k.merged = true) : k.tombstone = k := by
  cases k
  cases h
  rfl

theorem NameMap.reset_rename (m : NameMap) (name target : String) :
    (m.rename name target).reset = m.reset := by
  unfold NameMap.reset NameMap.rename
  rw [OrderedMap.keys_replace]

@[simp] theorem NameMap.keys_reset (m : NameMap) : m.reset.keys = m.keys := by
  simp [NameMap.reset, OrderedMap.keys, Function.comp_def]

namespace View

/-! ## One slot -/

theorem liveComponent?_eq_some_iff {v : View} {f : Family} {c : Option Channel} {k : Component} :
    v.liveComponent? f c = some k ↔ v.components.get? ⟨f, c⟩ = some k ∧ k.merged = false := by
  unfold liveComponent? component?
  rw [Option.filter_eq_some_iff, Component.isLive, Bool.not_eq_true']

/-- What handing over does to the view: nothing without a live component in the slot. -/
theorem handOver_of_none {v : View} {f : Family} {c : Option Channel}
    (h : v.liveComponent? f c = none) (name : String) : handOver f c name v = v := by
  unfold handOver
  rw [h]

theorem handOver_of_some {v : View} {f : Family} {c : Option Channel} {k : Component}
    (h : v.liveComponent? f c = some k) (name : String) :
    handOver f c name v =
      (match f.nameKind? with
        | some kind => v.rename kind k.name name
        | none => v).putComponent f c k.tombstone := by
  unfold handOver
  rw [h]
  rfl

theorem get?_handOver (v : View) (f : Family) (c : Option Channel) (name : String) (s : Slot) :
    (handOver f c name v).components.get? s =
      if s = ⟨f, c⟩ then (v.components.get? s).map Component.tombstone
      else v.components.get? s := by
  cases h : v.liveComponent? f c with
  | none =>
    rw [handOver_of_none h]
    split
    · rename_i hs
      subst hs
      cases hk : v.components.get? ⟨f, c⟩ with
      | none => rfl
      | some k =>
        have hmerged : k.merged = true := by
          cases hm : k.merged with
          | true => rfl
          | false => rw [liveComponent?_eq_some_iff.2 ⟨hk, hm⟩] at h; cases h
        rw [Option.map_some, Component.tombstone_of_merged hmerged]
    · rfl
  | some k =>
    have hk := (liveComponent?_eq_some_iff.1 h).1
    have hcomponents : (handOver f c name v).components =
        v.components.insert ⟨f, c⟩ k.tombstone := by
      rw [handOver_of_some h]
      cases f <;> rfl
    rw [hcomponents, OrderedMap.get?_insert]
    split
    · rename_i hs
      rw [hs, hk]
      rfl
    · rfl

theorem names_handOver {v : View} {f : Family} {c : Option Channel} {k : Component}
    (h : v.liveComponent? f c = some k) (name : String) (kind : NameKind) :
    (handOver f c name v).scope.names kind =
      if f.nameKind? = some kind then (v.scope.names kind).rename k.name name
      else v.scope.names kind := by
  rw [handOver_of_some h]
  cases f <;> cases kind <;> rfl

theorem asMade_handOver (v : View) (f : Family) (c : Option Channel) (name : String) :
    (handOver f c name v).asMade = v.asMade := by
  cases h : v.liveComponent? f c with
  | none => rw [handOver_of_none h]
  | some k =>
    have hk := (liveComponent?_eq_some_iff.1 h).1
    have hmap : (v.components.insert ⟨f, c⟩ k.tombstone).mapValues Component.unmerged =
        v.components.mapValues Component.unmerged :=
      OrderedMap.mapValues_insert_of_get? _ hk (Component.unmerged_tombstone k)
    rw [handOver_of_some h]
    cases f <;>
      simp [asMade, Family.nameKind?, rename, putComponent, NameScope.rename, NameScope.modify,
        NameMap.reset_rename, hmap]

/-! ## All slots of a parent -/

/-- A child after its components were merged into those of its parent, slot by slot. -/
def handOverAll (parent : View) (slots : List Slot) (v : View) : View :=
  slots.foldl (fun v s => match parent.components.get? s with
    | some k => handOver s.family s.channel k.name v
    | none => v) v

theorem handOverAll_append_singleton (parent : View) (slots : List Slot) (s : Slot) (v : View) :
    handOverAll parent (slots ++ [s]) v = match parent.components.get? s with
      | some k => handOver s.family s.channel k.name (handOverAll parent slots v)
      | none => handOverAll parent slots v := by
  unfold handOverAll
  rw [List.foldl_append]
  rfl

theorem asMade_handOverAll (parent : View) (slots : List Slot) (v : View) :
    (handOverAll parent slots v).asMade = v.asMade := by
  induction slots using List.reverseRecOn with
  | nil => rfl
  | append_singleton slots s ih =>
    rw [handOverAll_append_singleton]
    split
    · rw [asMade_handOver, ih]
    · exact ih

/-- Exactly the components of slots that the parent fills are merged. -/
theorem get?_handOverAll (parent : View) (slots : List Slot) (v : View) (s : Slot) :
    (handOverAll parent slots v).components.get? s =
      if s ∈ slots ∧ (parent.components.get? s).isSome = true then
        (v.components.get? s).map Component.tombstone
      else v.components.get? s := by
  induction slots using List.reverseRecOn with
  | nil => rw [if_neg fun h => List.not_mem_nil h.1]; rfl
  | append_singleton slots t ih =>
    rw [handOverAll_append_singleton]
    by_cases hst : s = t
    · subst hst
      cases hp : parent.components.get? s with
      | none => simpa [hp] using ih
      | some k =>
        rw [hp] at ih
        simp only [get?_handOver, ih]
        cases v.components.get? s <;> by_cases hs : s ∈ slots <;> simp [hs, Component.tombstone]
    · cases hp : parent.components.get? t with
      | none => simpa [hst] using ih
      | some k =>
        show (handOver t.family t.channel k.name (handOverAll parent slots v)).components.get? s = _
        rw [get?_handOver, if_neg hst]
        simpa [hst] using ih

/-- The name of a component after the parent has filled its slot: the name of the parent's
component, or its own if there is none. -/
def nameAfter (parent : View) (s : Slot) (k : Component) : String :=
  ((parent.components.get? s).map Component.name).getD k.name

theorem Made.name_ne {v : View} (h : v.Made) {s t : Slot} (hst : s ≠ t)
    (hf : s.family = t.family) {k j : Component} (hk : v.components.get? s = some k)
    (hj : v.components.get? t = some j) : k.name ≠ j.name := by
  intro hname
  rw [h.named s k hk, h.named t j hj] at hname
  exact hst (componentName_injective v (h.slots s (OrderedMap.mem_keys_of_get? hk))
    (h.slots t (OrderedMap.mem_keys_of_get? hj)) hf hname)

/-- A component of a made view is entered in the scope under its own name. -/
theorem Made.get?_names {v : View} (h : v.Made) {s : Slot} {k : Component}
    (hk : v.components.get? s = some k) {kind : NameKind} (hkind : s.family.nameKind? = some kind) :
    (v.scope.names kind).get? k.name = some k.name := by
  have hmem : (k.name, k.name) ∈ (v.scope.names kind).entries := by
    rw [h.scope s.family kind hkind, List.mem_map]
    refine ⟨k, List.mem_filterMap.2 ⟨(s, k), OrderedMap.mem_entries_of_get? hk, ?_⟩, rfl⟩
    simp
  cases hn : (v.scope.names kind).get? k.name with
  | none =>
    exact absurd (List.mem_map_of_mem hmem) ((OrderedMap.get?_eq_none_iff _ _).1 hn)
  | some n =>
    have hn' := OrderedMap.mem_entries_of_get? hn
    rw [h.scope s.family kind hkind, List.mem_map] at hn'
    obtain ⟨j, -, hj⟩ := hn'
    rw [← (Prod.mk.inj hj).2, (Prod.mk.inj hj).1]

/-- Exactly the names of components in slots that the parent fills are assigned others. -/
theorem get?_names_handOverAll {v : View} (h : v.Made) (parent : View) {slots : List Slot}
    (hnodup : slots.Nodup) {s : Slot} {k : Component} (hk : v.components.get? s = some k)
    {kind : NameKind} (hkind : s.family.nameKind? = some kind) :
    ((handOverAll parent slots v).scope.names kind).get? k.name =
      some (if s ∈ slots then nameAfter parent s k else k.name) := by
  induction slots using List.reverseRecOn with
  | nil => exact h.get?_names hk hkind
  | append_singleton slots t ih =>
    obtain ⟨hslots, -, hdisjoint⟩ := List.nodup_append.1 hnodup
    have ih := ih hslots
    have ht : t ∉ slots := fun hm => hdisjoint t hm t (List.mem_singleton_self t) rfl
    rw [handOverAll_append_singleton]
    cases hp : parent.components.get? t with
    | none =>
      by_cases hst : s = t
      · subst hst
        rw [if_neg ht] at ih
        simpa [nameAfter, hp] using ih
      · simpa [hst] using ih
    | some p =>
      -- the child's component of this slot is still as it was made
      have hget : (handOverAll parent slots v).components.get? t = v.components.get? t := by
        rw [get?_handOverAll, if_neg fun hm => ht hm.1]
      cases hj : v.components.get? t with
      | none =>
        have hst : s ≠ t := by
          intro he
          rw [he, hj] at hk
          cases hk
        have hnone : (handOverAll parent slots v).liveComponent? t.family t.channel = none := by
          unfold liveComponent? component?
          rw [hget, hj]
          rfl
        show ((handOver _ _ _ _).scope.names kind).get? k.name = _
        rw [handOver_of_none hnone, ih]
        simp [hst]
      | some j =>
        have hlive : (handOverAll parent slots v).liveComponent? t.family t.channel = some j :=
          liveComponent?_eq_some_iff.2 ⟨hget.trans hj, h.live t j hj⟩
        show ((handOver _ _ _ _).scope.names kind).get? k.name = _
        rw [names_handOver hlive]
        by_cases hst : s = t
        · subst hst
          obtain rfl : k = j := Option.some.inj (hk.symm.trans hj)
          rw [if_pos hkind, NameMap.get?_rename, if_pos rfl, ih]
          simp [nameAfter, hp]
        · split
          · rename_i htkind
            have hne := h.name_ne hst (nameKind?_injective hkind htkind) hk hj
            rw [NameMap.get?_rename, if_neg hne, ih]
            simp [hst]
          · rw [ih]
            simp [hst]

end View

end ChartLowering
