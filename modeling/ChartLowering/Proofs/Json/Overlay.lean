import ChartLowering.Proofs.Json.Arrangement

/-
  Properties up to the order of keys.

  What is done to properties keeps those alike that were alike but for the order of their keys:
  leaving some out (`Fields.arranged_filterKeys`) and putting some over others
  (`Fields.arranged_overlay`), which goes one property at a time. Sorting the keys turns a put into one
  that keeps the keys sorted (`placed`), and of two such puts of different keys either may be first.
-/

namespace ChartLowering

namespace Json

variable {p : Place}

/-! ## Leaving fields out -/

/-- Whether fields stand in the order of their keys. -/
def InOrder (l : List (String × Json)) : Prop := l.Pairwise fun f g => f.1 ≤ g.1

theorem InOrder.insertField {l : List (String × Json)} (h : InOrder l) (f : String × Json) :
    InOrder (insertField f l) := by
  induction l with
  | nil => exact List.pairwise_singleton _ _
  | cons g rest ih =>
    obtain ⟨hg, hrest⟩ := List.pairwise_cons.1 h
    rw [Json.insertField]
    split
    · rename_i hle
      refine List.pairwise_cons.2 ⟨fun e he => ?_, h⟩
      rcases List.mem_cons.1 he with rfl | he
      · exact hle
      · exact String.le_trans hle (hg e he)
    · rename_i hlt
      refine List.pairwise_cons.2 ⟨fun e he => ?_, ih hrest⟩
      rcases mem_insertField.1 he with rfl | he
      · exact (String.le_total _ _).resolve_right hlt
      · exact hg e he

/-- Where the order of keys does not count the fields are put in order. -/
theorem inOrder_arrangedFields (hp : p.enter = insertField) (fs : List (String × Json)) :
    InOrder (arrangedFields p fs) := by
  induction fs with
  | nil => exact List.Pairwise.nil
  | cons f rest ih =>
    rw [arrangedFields, hp]
    exact ih.insertField _

/-- A field that goes before all others is put in front. -/
theorem insertField_of_forall_le {f : String × Json} {l : List (String × Json)}
    (h : ∀ e ∈ l, f.1 ≤ e.1) : insertField f l = f :: l := by
  cases l with
  | nil => rfl
  | cons g rest => rw [insertField, if_pos (h g List.mem_cons_self)]

theorem filter_insertField (P : String → Bool) {l : List (String × Json)} (h : InOrder l)
    (f : String × Json) : (insertField f l).filter (fun e => P e.1) =
      if P f.1 then insertField f (l.filter fun e => P e.1) else l.filter fun e => P e.1 := by
  induction l with
  | nil => by_cases hP : P f.1 = true <;> simp [insertField, hP]
  | cons g rest ih =>
    obtain ⟨hg, hrest⟩ := List.pairwise_cons.1 h
    rw [insertField]
    split
    · rename_i hle
      have hall : ∀ e ∈ (g :: rest).filter fun e => P e.1, f.1 ≤ e.1 := by
        intro e he
        rcases List.mem_cons.1 (List.mem_filter.1 he).1 with rfl | he
        · exact hle
        · exact String.le_trans hle (hg e he)
      rw [insertField_of_forall_le hall, List.filter_cons]
    · rename_i hlt
      rw [List.filter_cons, ih hrest, List.filter_cons]
      by_cases hPf : P f.1 = true <;> by_cases hPg : P g.1 = true <;>
        simp [hPf, hPg, insertField, hlt]

/-- Leaving fields out of objects that differ in order leaves objects that do. -/
theorem arrangedFields_filter (p : Place) (P : String → Bool) (fs : List (String × Json)) :
    arrangedFields p (fs.filter fun e => P e.1) =
      (arrangedFields p fs).filter fun e => P e.1 := by
  induction fs with
  | nil => rfl
  | cons f rest ih =>
    obtain ⟨k, v⟩ := f
    rcases p.enter_eq with hp | hp
    · rw [arrangedFields, hp, List.filter_cons, List.filter_cons]
      split
      · rw [arrangedFields, hp, ih]
      · exact ih
    · rw [arrangedFields, hp, filter_insertField P (inOrder_arrangedFields hp rest), ← ih,
        List.filter_cons]
      split
      · rw [arrangedFields, hp]
      · rfl

/-! ## Putting a field -/

/-- Puts a field among sorted ones: in the place of the one with its key, or where the key belongs. -/
def placed (k : String) (a : Json) (l : List (String × Json)) : List (String × Json) :=
  if (OrderedMap.find? k l).isSome then OrderedMap.put k a l else insertField (k, a) l

theorem put_insertField_self (k : String) (a b : Json) (l : List (String × Json)) :
    OrderedMap.put k a (insertField (k, b) l) = insertField (k, a) l := by
  induction l with
  | nil => simp [insertField, OrderedMap.put]
  | cons g rest ih =>
    rw [insertField, insertField]
    split
    · simp [OrderedMap.put]
    · rename_i hlt
      have hne : ¬ k = g.1 := fun he => hlt (he ▸ String.le_refl _)
      rw [OrderedMap.put, if_neg hne, ih]

theorem put_insertField_of_ne {k : String} {l : List (String × Json)}
    (hk : (OrderedMap.find? k l).isSome = true) {f : String × Json} (hne : k ≠ f.1) (a : Json) :
    OrderedMap.put k a (insertField f l) = insertField f (OrderedMap.put k a l) := by
  induction l with
  | nil => cases hk
  | cons g rest ih =>
    by_cases hg : k = g.1
    · have hput : OrderedMap.put k a (g :: rest) = (g.1, a) :: rest := by
        rw [OrderedMap.put, if_pos hg]
      rw [hput, insertField, insertField]
      split
      · rw [OrderedMap.put, if_neg hne, hput]
      · rw [OrderedMap.put, if_pos hg]
    · rw [OrderedMap.find?, if_neg hg] at hk
      have hput : OrderedMap.put k a (g :: rest) = g :: OrderedMap.put k a rest := by
        rw [OrderedMap.put, if_neg hg]
      rw [hput, insertField, insertField]
      split
      · rw [OrderedMap.put, if_neg hne, hput]
      · rw [OrderedMap.put, if_neg hg, ih hk]

/-- Putting a field and sorting the keys after that. -/
theorem arrangedFields_put (k : String) (a : Json) (l : List (String × Json)) :
    arrangedFields .free (OrderedMap.put k a l) =
      placed k (arranged .free a) (arrangedFields .free l) := by
  induction l with
  | nil => rfl
  | cons f rest ih =>
    obtain ⟨j, b⟩ := f
    have hcons : ∀ (v : Json) (r : List (String × Json)), arrangedFields .free ((j, v) :: r) =
        insertField (j, arranged .free v) (arrangedFields .free r) := fun _ _ => rfl
    rw [hcons]
    by_cases hk : k = j
    · subst hk
      rw [OrderedMap.put, if_pos rfl, hcons, placed, find?_insertField, if_pos rfl, Option.isSome_some,
        if_pos rfl, put_insertField_self]
    · rw [OrderedMap.put, if_neg hk, hcons, ih, placed, placed, find?_insertField, if_neg hk]
      split
      · rename_i hsome
        exact (put_insertField_of_ne hsome hk _).symm
      · exact insertField_comm (Ne.symm hk) _

theorem find?_placed (k j : String) (a : Json) (l : List (String × Json)) :
    OrderedMap.find? j (placed k a l) = if j = k then some a else OrderedMap.find? j l := by
  unfold placed
  split
  · exact OrderedMap.find?_put k j a l
  · exact find?_insertField (k, a) l j

theorem put_comm {k j : String} {l : List (String × Json)}
    (hk : (OrderedMap.find? k l).isSome = true) (h : j ≠ k) (a b : Json) :
    OrderedMap.put k b (OrderedMap.put j a l) = OrderedMap.put j a (OrderedMap.put k b l) := by
  have hmem : k ∈ (OrderedMap.mk l).keys := (OrderedMap.find?_isSome k l).1 hk
  exact congrArg OrderedMap.entries (OrderedMap.insert_comm hmem h a b)

/-- Fields under different keys are put in any order. -/
theorem placed_comm {k j : String} (h : j ≠ k) (a b : Json) (l : List (String × Json)) :
    placed k b (placed j a l) = placed j a (placed k b l) := by
  have hj : OrderedMap.find? j (placed k b l) = OrderedMap.find? j l := by
    rw [find?_placed, if_neg h]
  have hk : OrderedMap.find? k (placed j a l) = OrderedMap.find? k l := by
    rw [find?_placed, if_neg (Ne.symm h)]
  rw [placed, hk, placed.eq_1 j a (placed k b l), hj]
  unfold placed
  by_cases hkl : (OrderedMap.find? k l).isSome = true <;>
    by_cases hjl : (OrderedMap.find? j l).isSome = true
  · rw [if_pos hkl, if_pos hjl, if_pos hjl, if_pos hkl, put_comm hkl h]
  · rw [if_pos hkl, if_neg hjl, if_neg hjl, if_pos hkl, put_insertField_of_ne hkl (Ne.symm h)]
  · rw [if_neg hkl, if_pos hjl, if_pos hjl, if_neg hkl, put_insertField_of_ne hjl h]
  · rw [if_neg hkl, if_neg hjl, if_neg hjl, if_neg hkl]
    exact insertField_comm (Ne.symm h) l

/-! ## Putting fields over others -/

/-- Puts fields among sorted ones, one after the other. -/
def placedAll (l top : List (String × Json)) : List (String × Json) :=
  top.foldl (fun acc e => placed e.1 e.2 acc) l

theorem placedAll_insertField (f : String × Json) (l top : List (String × Json)) :
    placedAll l (insertField f top) = placedAll l (f :: top) := by
  induction top generalizing l with
  | nil => rfl
  | cons g rest ih =>
    rw [insertField]
    split
    · rfl
    · rename_i hlt
      have hne : f.1 ≠ g.1 := fun he => hlt (he ▸ String.le_refl _)
      show placedAll (placed g.1 g.2 l) (insertField f rest) = _
      rw [ih]
      show placedAll (placed f.1 f.2 (placed g.1 g.2 l)) rest =
        placedAll (placed g.1 g.2 (placed f.1 f.2 l)) rest
      rw [placed_comm (Ne.symm hne)]

/-- Fields may be sorted before they are put. -/
theorem placedAll_arrangedFields (l top : List (String × Json)) :
    placedAll l (arrangedFields .free top) =
      placedAll l (top.map fun e => (e.1, arranged .free e.2)) := by
  induction top generalizing l with
  | nil => rfl
  | cons f rest ih =>
    obtain ⟨k, v⟩ := f
    show placedAll l (insertField (k, arranged .free v) (arrangedFields .free rest)) = _
    rw [placedAll_insertField]
    exact ih (placed k (arranged .free v) l)

end Json

namespace Fields

/-- The properties with their keys sorted where the order does not count. -/
def arranged (p : Place) (m : Fields) : Fields := ⟨Json.arrangedFields p m.entries⟩

variable {p : Place} {m m' top top' : Fields}

@[simp] theorem arranged_fixed (m : Fields) : m.arranged .fixed = m :=
  congrArg OrderedMap.mk (Json.arrangedFields_fixed m.entries)

theorem arranged_iff_ofFields :
    m.arranged p = m'.arranged p ↔ (Json.ofFields m).arranged p = (Json.ofFields m').arranged p := by
  unfold arranged
  rw [OrderedMap.mk.injEq]
  exact ⟨congrArg Json.obj, Json.obj.inj⟩

theorem get?_arranged (hp : p.IsUniform) (m : Fields) (k : String) :
    (m.arranged p).get? k = (m.get? k).map (Json.arranged p) := by
  refine (Json.find?_arrangedFields p m.entries k).trans ?_
  rw [hp k]
  rfl

theorem isEmpty_arranged (p : Place) (m : Fields) : (m.arranged p).isEmpty = m.isEmpty := by
  unfold OrderedMap.isEmpty
  rw [Bool.eq_iff_iff, List.isEmpty_iff_length_eq_zero, List.isEmpty_iff_length_eq_zero]
  show (Json.arrangedFields p m.entries).length = 0 ↔ _
  rw [Json.length_arrangedFields]

theorem contains_arranged (p : Place) (m : Fields) (k : String) :
    (m.arranged p).contains k = m.contains k := by
  unfold OrderedMap.contains
  show (OrderedMap.find? k (Json.arrangedFields p m.entries)).isSome = _
  rw [Json.find?_arrangedFields, Option.isSome_map]
  rfl

/-- Properties that are alike keep alike when some are left out. -/
theorem arranged_filterKeys (h : m.arranged p = m'.arranged p) (P : String → Bool) :
    arranged p (m.filterKeys P) = arranged p (m'.filterKeys P) := by
  unfold arranged OrderedMap.filterKeys at *
  rw [Json.arrangedFields_filter, Json.arrangedFields_filter, OrderedMap.mk.inj h]

theorem arrangedFields_overlay (m top : Fields) : Json.arrangedFields .free (m.overlay top).entries =
    Json.placedAll (Json.arrangedFields .free m.entries) (Json.arrangedFields .free top.entries) := by
  rw [Json.placedAll_arrangedFields]
  obtain ⟨l⟩ := top
  show Json.arrangedFields .free (l.foldl (fun acc e => acc.insert e.1 e.2) m).entries =
    Json.placedAll _ (l.map fun e => (e.1, Json.arranged .free e.2))
  induction l generalizing m with
  | nil => rfl
  | cons e rest ih =>
    rw [List.foldl_cons, ih (m.insert e.1 e.2)]
    show Json.placedAll (Json.arrangedFields .free (OrderedMap.put e.1 e.2 m.entries)) _ = _
    rw [Json.arrangedFields_put]
    rfl

/-- Properties over properties are alike if both layers are. -/
theorem arranged_overlay (hp : p.IsUniform) (h : m.arranged p = m'.arranged p)
    (htop : top.arranged p = top'.arranged p) :
    arranged p (m.overlay top) = arranged p (m'.overlay top') := by
  cases p with
  | fixed =>
    rw [arranged_fixed, arranged_fixed] at h htop ⊢
    rw [h, htop]
  | free =>
    unfold arranged at *
    rw [arrangedFields_overlay, arrangedFields_overlay, OrderedMap.mk.inj h, OrderedMap.mk.inj htop]
  | view => cases hp ""
  | encoding => cases hp ""
  | channel => cases hp ""

end Fields

end ChartLowering
