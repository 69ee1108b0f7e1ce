import ChartLowering.Proofs.Json.Arrangement
import ChartLowering.Proofs.Json.RoundTrip
import ChartLowering.Proofs.Json.Symmetry

/-
  The canonical text of a value.

  The text that is fingerprinted has the keys of every object sorted, so it does not tell values
  apart that differ in the order of keys (`Reordered`). It tells all others apart
  (`canonicalText_eq_iff`): the sorted value is read back from it, and sorting brings no other values
  together. Truth values are not numbers here, other than in `Json.same`.
-/

namespace ChartLowering.Json

/-- Equality up to the order of the keys of objects, at every depth. -/
inductive Reordered : Json → Json → Prop where
  | null : Reordered .null .null
  | bool (b : Bool) : Reordered (.bool b) (.bool b)
  | num (n : Number) : Reordered (.num n) (.num n)
  | str (s : String) : Reordered (.str s) (.str s)
  | arr {xs ys : List Json} (length : xs.length = ys.length)
      (items : ∀ (i : Nat) (v w : Json), xs[i]? = some v → ys[i]? = some w → Reordered v w) :
      Reordered (.arr xs) (.arr ys)
  | obj {fs gs : List (String × Json)} (keys : (fs.map Prod.fst).Perm (gs.map Prod.fst))
      (values : ∀ (k : String) (v w : Json), (k, v) ∈ fs → (k, w) ∈ gs → Reordered v w) :
      Reordered (.obj fs) (.obj gs)

/-! ## Sorted fields -/

theorem perm_insertField (f : String × Json) (l : List (String × Json)) :
    (insertField f l).Perm (f :: l) := by
  induction l with
  | nil => exact .refl _
  | cons g rest ih =>
    rw [insertField]
    split
    · exact .refl _
    · exact (ih.cons g).trans (.swap f g rest)

theorem keys_sortedFields_perm (fs : List (String × Json)) :
    ((sortedFields fs).map Prod.fst).Perm (fs.map Prod.fst) := by
  induction fs with
  | nil => exact .refl _
  | cons f rest ih =>
    obtain ⟨k, v⟩ := f
    rw [sortedFields]
    exact ((perm_insertField _ _).map Prod.fst).trans (ih.cons k)

theorem isExactFields_insertField (f : String × Json) (l : List (String × Json)) :
    isExactFields (insertField f l) = (f.2.isExact && isExactFields l) := by
  induction l with
  | nil => rfl
  | cons g rest ih =>
    rw [insertField]
    split
    · rfl
    · rw [isExactFields, ih, isExactFields, Bool.and_left_comm]

theorem isExactFields_iff (fs : List (String × Json)) :
    isExactFields fs = true ↔ ∀ f ∈ fs, f.2.isExact = true := by
  induction fs with
  | nil => exact ⟨fun _ => nofun, fun _ => rfl⟩
  | cons f rest ih =>
    obtain ⟨k, v⟩ := f
    rw [isExactFields, Bool.and_eq_true, ih, List.forall_mem_cons]

mutual

theorem isExact_sorted : ∀ j : Json, j.isExact = true → j.sorted.isExact = true
  | .null, _ | .bool _, _ | .str _, _ => rfl
  | .num _, h => h
  | .arr items, h => isExactAll_sortedItems items h
  | .obj fields, h => isExactFields_sortedFields fields h

theorem isExactAll_sortedItems : ∀ items : List Json, isExactAll items = true →
    isExactAll (sortedItems items) = true
  | [], _ => rfl
  | v :: rest, h => by
    rw [isExactAll, Bool.and_eq_true] at h
    rw [sortedItems, isExactAll, isExact_sorted v h.1, isExactAll_sortedItems rest h.2]
    rfl

theorem isExactFields_sortedFields : ∀ fs : List (String × Json), isExactFields fs = true →
    isExactFields (sortedFields fs) = true
  | [], _ => rfl
  | (k, v) :: rest, h => by
    rw [isExactFields, Bool.and_eq_true] at h
    rw [sortedFields, isExactFields_insertField, isExact_sorted v h.1,
      isExactFields_sortedFields rest h.2]
    rfl

end

/-- The text of a value is that of its sorted form only. -/
theorem canonicalText_eq_iff_sorted {a b : Json} (ha : a.isExact = true) (hb : b.isExact = true) :
    canonicalText a = canonicalText b ↔ a.sorted = b.sorted :=
  ⟨compactText_injective (isExact_sorted a ha) (isExact_sorted b hb), congrArg compactText⟩

/-! ## What sorting brings together -/

mutual

/-- Values that become the same by sorting are equal up to the order of keys. -/
theorem reordered_of_sorted_eq : ∀ a b : Json, a.isExact = true → b.isExact = true →
    a.distinctKeys = true → b.distinctKeys = true → a.sorted = b.sorted → Reordered a b
  | .null, b, _, hb, _, _, h => by
    cases b with
    | null => exact .null
    | table => cases hb
    | bool | num | str | arr | obj => cases h
  | .bool x, b, _, hb, _, _, h => by
    cases b with
    | bool y => cases h; exact .bool x
    | table => cases hb
    | null | num | str | arr | obj => cases h
  | .num m, b, _, hb, _, _, h => by
    cases b with
    | num n => cases h; exact .num m
    | table => cases hb
    | null | bool | str | arr | obj => cases h
  | .str s, b, _, hb, _, _, h => by
    cases b with
    | str t => cases h; exact .str s
    | table => cases hb
    | null | bool | num | arr | obj => cases h
  | .arr xs, b, ha, hb, hda, hdb, h => by
    cases b with
    | arr ys =>
      obtain ⟨hlength, hitems⟩ :=
        reorderedItems_of_sorted_eq xs ys ha hb hda hdb (Json.arr.inj h)
      exact .arr hlength hitems
    | table => cases hb
    | null | bool | num | str | obj => cases h
  | .obj fs, b, ha, hb, hda, hdb, h => by
    cases b with
    | obj gs =>
      obtain ⟨hfs, hda⟩ := distinctKeys_obj hda
      obtain ⟨hgs, hdb⟩ := distinctKeys_obj hdb
      have hfields : sortedFields fs = sortedFields gs := Json.obj.inj h
      refine .obj ?keys fun k v w hv hw => ?value
      case keys =>
        exact (keys_sortedFields_perm fs).symm.trans (hfields ▸ keys_sortedFields_perm gs)
      case value =>
        -- the two values stand under one key of the sorted object
        have hfind := find?_sortedFields fs k
        rw [hfields, find?_sortedFields, find?_of_mem hfs hv, find?_of_mem hgs hw] at hfind
        have hexact : w.isExact = true := (isExactFields_iff gs).1 hb (k, w) hw
        have hdistinct : w.distinctKeys = true :=
          (distinctKeysFields_iff gs).1 hdb w (List.mem_map_of_mem hw)
        exact reorderedFields_of_sorted_eq fs ha hda (k, v) hv w hexact hdistinct
          (Option.some.inj hfind).symm
    | table => cases hb
    | null | bool | num | str | arr => cases h
  | .table _, _, ha, _, _, _, _ => by cases ha

theorem reorderedItems_of_sorted_eq : ∀ xs ys : List Json, isExactAll xs = true →
    isExactAll ys = true → distinctKeysAll xs = true → distinctKeysAll ys = true →
      sortedItems xs = sortedItems ys → xs.length = ys.length ∧
        ∀ (i : Nat) (v w : Json), xs[i]? = some v → ys[i]? = some w → Reordered v w
  | [], ys, _, _, _, _, h => by
    cases ys with
    | nil => exact ⟨rfl, nofun⟩
    | cons y ys => cases h
  | x :: xs, ys, hxs, hys, hdx, hdy, h => by
    cases ys with
    | nil => cases h
    | cons y ys =>
      rw [isExactAll, Bool.and_eq_true] at hxs hys
      rw [distinctKeysAll, Bool.and_eq_true] at hdx hdy
      obtain ⟨hhead, hrest⟩ := List.cons.inj h
      obtain ⟨hlength, hitems⟩ :=
        reorderedItems_of_sorted_eq xs ys hxs.2 hys.2 hdx.2 hdy.2 hrest
      refine ⟨congrArg Nat.succ hlength, fun i v w hv hw => ?_⟩
      cases i with
      | zero =>
        obtain rfl := Option.some.inj hv
        obtain rfl := Option.some.inj hw
        exact reordered_of_sorted_eq _ _ hxs.1 hys.1 hdx.1 hdy.1 hhead
      | succ i => exact hitems i v w hv hw

theorem reorderedFields_of_sorted_eq : ∀ fs : List (String × Json), isExactFields fs = true →
    distinctKeysFields fs = true → ∀ f ∈ fs, ∀ w : Json, w.isExact = true →
      w.distinctKeys = true → f.2.sorted = w.sorted → Reordered f.2 w
  | [], _, _, _, hf, _, _, _, _ => absurd hf List.not_mem_nil
  | (k, v) :: rest, hfs, hdfs, f, hf, w, hw, hdw, h => by
    rw [isExactFields, Bool.and_eq_true] at hfs
    rw [distinctKeysFields, Bool.and_eq_true] at hdfs
    rcases List.mem_cons.1 hf with rfl | hf
    · exact reordered_of_sorted_eq v w hfs.1 hw hdfs.1 hdw h
    · exact reorderedFields_of_sorted_eq rest hfs.2 hdfs.2 f hf w hw hdw h

end

theorem distinctKeysAll_iff (items : List Json) :
    distinctKeysAll items = true ↔ ∀ j ∈ items, j.distinctKeys = true := by
  induction items with
  | nil => exact ⟨fun _ => nofun, fun _ => rfl⟩
  | cons j rest ih => rw [distinctKeysAll, Bool.and_eq_true, ih, List.forall_mem_cons]

/-- Fields with the same keys and values are the same once they are sorted. -/
theorem sortedFields_eq_of_mem_iff {fs gs : List (String × Json)} (hfs : (fs.map Prod.fst).Nodup)
    (hgs : (gs.map Prod.fst).Nodup)
    (h : ∀ e, e ∈ fs.map (fun f => (f.1, f.2.sorted)) ↔ e ∈ gs.map fun f => (f.1, f.2.sorted)) :
    sortedFields fs = sortedFields gs := by
  have hkeys (l : List (String × Json)) :
      (l.map fun f => (f.1, f.2.sorted)).map Prod.fst = l.map Prod.fst := by
    rw [List.map_map]
    rfl
  have hf : ((fs.map fun f => (f.1, f.2.sorted)).map Prod.fst).Nodup := by rwa [hkeys]
  have hg : ((gs.map fun f => (f.1, f.2.sorted)).map Prod.fst).Nodup := by rwa [hkeys]
  have hperm := (List.perm_ext_iff_of_nodup hf.of_map hg.of_map).2 h
  rw [sortedFields_eq_foldr, sortedFields_eq_foldr]
  refine hperm.foldr_eq' (fun e he e' he' l => ?_) []
  by_cases hee : e = e'
  · rw [hee]
  · exact insertField_comm (fun hk => hee (List.inj_on_of_nodup_map hf he he' hk.symm)) l

/-- Sorting brings all values together that are equal up to the order of keys. -/
theorem Reordered.sorted_eq {a b : Json} (h : Reordered a b) (ha : a.distinctKeys = true)
    (hb : b.distinctKeys = true) : a.sorted = b.sorted := by
  induction h with
  | null | bool | num | str => rfl
  | arr length items ih =>
    rename_i xs ys
    rw [distinctKeys, distinctKeysAll_iff] at ha hb
    rw [sorted, sorted, sortedItems_eq_map, sortedItems_eq_map]
    congr 1
    refine List.ext_getElem (by rw [List.length_map, List.length_map, length]) fun i hx hy => ?_
    rw [List.length_map] at hx hy
    rw [List.getElem_map, List.getElem_map]
    exact ih i _ _ (List.getElem?_eq_getElem hx) (List.getElem?_eq_getElem hy)
      (ha _ (List.getElem_mem hx)) (hb _ (List.getElem_mem hy))
  | obj keys values ih =>
    rename_i fs gs
    obtain ⟨hfs, ha⟩ := distinctKeys_obj ha
    obtain ⟨hgs, hb⟩ := distinctKeys_obj hb
    rw [distinctKeysFields_iff] at ha hb
    -- under one key stand values that are sorted to the same
    have hvalue {k : String} {v w : Json} (hv : (k, v) ∈ fs) (hw : (k, w) ∈ gs) :
        v.sorted = w.sorted :=
      ih k v w hv hw (ha v (List.mem_map_of_mem hv)) (hb w (List.mem_map_of_mem hw))
    rw [sorted, sorted, sortedFields_eq_of_mem_iff hfs hgs fun e => ?_]
    constructor
    · intro he
      obtain ⟨⟨k, v⟩, hv, rfl⟩ := List.mem_map.1 he
      obtain ⟨⟨_, w⟩, hw, rfl⟩ := List.mem_map.1 (keys.mem_iff.1 (List.mem_map_of_mem hv))
      rw [hvalue hv hw]
      exact List.mem_map.2 ⟨_, hw, rfl⟩
    · intro he
      obtain ⟨⟨k, w⟩, hw, rfl⟩ := List.mem_map.1 he
      obtain ⟨⟨_, v⟩, hv, rfl⟩ := List.mem_map.1 (keys.mem_iff.2 (List.mem_map_of_mem hw))
      rw [← hvalue hv hw]
      exact List.mem_map.2 ⟨_, hv, rfl⟩

theorem sorted_eq_iff_reordered {a b : Json} (ha : a.isExact = true) (hb : b.isExact = true)
    (hda : a.distinctKeys = true) (hdb : b.distinctKeys = true) :
    a.sorted = b.sorted ↔ Reordered a b :=
  ⟨reordered_of_sorted_eq a b ha hb hda hdb, fun h => h.sorted_eq hda hdb⟩

/-! ## The text -/

theorem toList_loop_eq (bytes : ByteArray) (i : Nat) (done : List UInt8) :
    ByteArray.toList.loop bytes i done = done.reverse ++ bytes.data.toList.drop i := by
  fun_induction ByteArray.toList.loop bytes i done with
  | case1 i done hi ih =>
    have hi : i < bytes.data.toList.length := hi
    have hbyte : bytes.get! i = bytes.data.toList[i] := by
      show bytes.data[i]! = _
      rw [getElem!_pos bytes.data i hi]
      rfl
    rw [ih, hbyte, List.reverse_cons, List.append_assoc, List.drop_eq_getElem_cons hi]
    rfl
  | case2 i done hi =>
    rw [List.drop_eq_nil_of_le (Nat.le_of_not_lt hi), List.append_nil]

/-- Different texts have different bytes. -/
theorem toUTF8_eq_iff {s t : String} : s.toUTF8.toList = t.toUTF8.toList ↔ s = t := by
  constructor
  · intro h
    have hdata (bytes : ByteArray) : bytes.toList = bytes.data.toList := by
      rw [ByteArray.toList, toList_loop_eq, List.reverse_nil, List.nil_append, List.drop_zero]
    rw [hdata, hdata, Array.toList_inj] at h
    exact String.toByteArray_inj.1 (ByteArray.ext h)
  · rintro rfl
    rfl

/-- Values without floating-point numbers have one canonical text, and so one list of bytes that goes
into the digest, exactly if they are equal up to the order of the keys of objects. -/
theorem canonicalText_eq_iff {a b : Json} (ha : a.isExact = true) (hb : b.isExact = true)
    (hda : a.distinctKeys = true) (hdb : b.distinctKeys = true) :
    (canonicalText a = canonicalText b ↔ Reordered a b) ∧
      ((canonicalText a).toUTF8.toList = (canonicalText b).toUTF8.toList ↔ Reordered a b) := by
  have htext := (canonicalText_eq_iff_sorted ha hb).trans (sorted_eq_iff_reordered ha hb hda hdb)
  exact ⟨htext, toUTF8_eq_iff.trans htext⟩

/-- Two orders of keys, outside and inside, make one text; a truth value in the place of a number
makes another one. -/
theorem canonicalText_eq_iff_swapped :
    let place : Json := .obj [("lon", .int (-12)), ("name", .str "\"Zürich\"\n")]
    let turned : Json := .obj [("name", .str "\"Zürich\"\n"), ("lon", .int (-12))]
    let a : Json := .obj [("type", .arr [.int 1, .null]), ("at", place)]
    let b : Json := .obj [("at", turned), ("type", .arr [.int 1, .null])]
    let c : Json := .obj [("at", turned), ("type", .arr [.bool true, .null])]
    [a, b, c].all isExact = true ∧ [a, b, c].all distinctKeys = true ∧
      (canonicalText a = canonicalText b ∧ Reordered a b) ∧
      canonicalText a ≠ canonicalText c ∧ ¬ Reordered a c := by
  intro place turned a b c
  have hexact : a.isExact = true ∧ b.isExact = true ∧ c.isExact = true := by decide +kernel
  have hdistinct : a.distinctKeys = true ∧ b.distinctKeys = true ∧ c.distinctKeys = true := by
    decide +kernel
  have hsame : canonicalText a = canonicalText b := by decide +kernel
  have hother : canonicalText a ≠ canonicalText c := by decide +kernel
  refine ⟨by decide +kernel, by decide +kernel, ⟨hsame, ?_⟩, hother, fun h => ?_⟩
  · exact (canonicalText_eq_iff hexact.1 hexact.2.1 hdistinct.1 hdistinct.2.1).1.1 hsame
  · exact hother
      ((canonicalText_eq_iff hexact.1 hexact.2.2 hdistinct.1 hdistinct.2.2).1.2 h)

end ChartLowering.Json
