import ChartLowering.Json.Fingerprint
import ChartLowering.Json.Plain
import Mathlib.Data.List.Nodup

/-
  Values told apart by their fingerprints.

  A fingerprint is a digest, so different values may have the same one. `Json.CollisionFree` says
  that this does not happen among some values. It is a condition on these values, not a property of
  the digest, and values that differ in the order of keys only are not different here. Of sorted
  values the fields can be read off as before (`field?_sorted`).
-/

namespace ChartLowering.Json

/-- Whether values with the same fingerprint are the same up to the order of keys. -/
def CollisionFree (values : List Json) : Prop :=
  ∀ a ∈ values, ∀ b ∈ values, a.fingerprint = b.fingerprint → a.sorted = b.sorted

instance (values : List Json) : Decidable (CollisionFree values) :=
  inferInstanceAs (Decidable (∀ a ∈ values, ∀ b ∈ values,
    a.fingerprint = b.fingerprint → a.sorted = b.sorted))

theorem CollisionFree.mono {values some : List Json} (h : CollisionFree values)
    (hsub : some ⊆ values) : CollisionFree some :=
  fun a ha b hb => h a (hsub ha) b (hsub hb)

/-- Values with different fingerprints do not collide. -/
theorem collisionFree_of_nodup {values : List Json} (h : (values.map fingerprint).Nodup) :
    CollisionFree values := by
  intro a ha b hb hab
  rw [List.inj_on_of_nodup_map h ha hb hab]

/-! ## Fields of sorted values -/

theorem find?_insertField (f : String × Json) (l : List (String × Json)) (k : String) :
    OrderedMap.find? k (insertField f l) = if k = f.1 then some f.2 else OrderedMap.find? k l := by
  induction l with
  | nil => rfl
  | cons g rest ih =>
    rw [insertField]
    split
    · rfl
    · rename_i hlt
      rw [OrderedMap.find?, OrderedMap.find?, ih]
      by_cases hk : k = g.1
      · have hne : ¬ k = f.1 := by
          rintro rfl
          exact hlt (hk ▸ String.le_refl _)
        rw [if_pos hk, if_neg hne, if_pos hk]
      · rw [if_neg hk, if_neg hk]

theorem find?_sortedFields (fs : List (String × Json)) (k : String) :
    OrderedMap.find? k (sortedFields fs) = (OrderedMap.find? k fs).map sorted := by
  induction fs with
  | nil => rfl
  | cons f rest ih =>
    obtain ⟨l, j⟩ := f
    rw [sortedFields, find?_insertField, ih, OrderedMap.find?]
    split <;> rfl

theorem field?_sorted (j : Json) (k : String) : j.sorted.field? k = (j.field? k).map sorted := by
  cases j with
  | obj fs => exact find?_sortedFields fs k
  | null | bool b | num n | str s | arr items | table rows => rfl

/-- Equal values but for the order of keys have equal fields. -/
theorem map_sorted_field?_eq {a b : Json} (h : a.sorted = b.sorted) (k : String) :
    (a.field? k).map sorted = (b.field? k).map sorted := by
  rw [← field?_sorted, ← field?_sorted, h]

theorem sortedFields_eq_foldr (fs : List (String × Json)) :
    sortedFields fs = (fs.map fun f => (f.1, f.2.sorted)).foldr insertField [] := by
  induction fs with
  | nil => rfl
  | cons f rest ih => rw [sortedFields, ih, List.map_cons, List.foldr_cons]

/-- Objects are the same up to the order of keys if the values under their keys are, in turn. -/
theorem sorted_obj_congr {fs gs : List (String × Json)}
    (h : fs.map (fun f => (f.1, f.2.sorted)) = gs.map fun f => (f.1, f.2.sorted)) :
    (obj fs).sorted = (obj gs).sorted := by
  rw [sorted, sorted, sortedFields_eq_foldr, sortedFields_eq_foldr, h]

/-! ## Sizes of objects -/

theorem length_insertField (f : String × Json) (l : List (String × Json)) :
    (insertField f l).length = l.length + 1 := by
  induction l with
  | nil => rfl
  | cons g rest ih =>
    rw [insertField]
    split
    · rfl
    · rw [List.length_cons, List.length_cons, ih]

theorem length_sortedFields (fs : List (String × Json)) : (sortedFields fs).length = fs.length := by
  induction fs with
  | nil => rfl
  | cons f rest ih =>
    obtain ⟨k, j⟩ := f
    rw [sortedFields, length_insertField, ih, List.length_cons]

theorem length_plainFields (fs : List (String × Json)) : (plainFields fs).length = fs.length := by
  induction fs with
  | nil => rfl
  | cons f rest ih =>
    obtain ⟨k, j⟩ := f
    rw [plainFields, List.length_cons, List.length_cons, ih]

/-- Plain objects that are the same, but for the order of keys, are both empty or neither is. -/
theorem isEmpty_eq_of_sorted_eq {fs gs : Fields}
    (h : (ofFields fs).plain.sorted = (ofFields gs).plain.sorted) : fs.isEmpty = gs.isEmpty := by
  have hfields : sortedFields (plainFields fs.entries) = sortedFields (plainFields gs.entries) :=
    Json.obj.inj h
  have hlength := congrArg List.length hfields
  rw [length_sortedFields, length_sortedFields, length_plainFields, length_plainFields] at hlength
  unfold OrderedMap.isEmpty
  rw [Bool.eq_iff_iff, List.isEmpty_iff_length_eq_zero, List.isEmpty_iff_length_eq_zero, hlength]

/-! ## Values that sorting leaves alone -/

theorem sortedItems_eq_map (items : List Json) : sortedItems items = items.map sorted := by
  induction items with
  | nil => rfl
  | cons j rest ih => rw [sortedItems, ih, List.map_cons]

theorem sorted_strings (l : List String) : (strings l).sorted = strings l := by
  rw [strings, sorted, sortedItems_eq_map, List.map_map]
  rfl

theorem strings_injective {l m : List String} (h : strings l = strings m) : l = m :=
  List.map_injective_iff.2 (fun _ _ hst => Json.str.inj hst) (Json.arr.inj h)

end ChartLowering.Json
