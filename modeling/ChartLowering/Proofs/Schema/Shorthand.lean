import ChartLowering.Proofs.Schema.Keys

/-
  Shorthand of one view.

  A mark may be given by its name alone, a concatenation by a key that stands for its direction, and
  a facet by one bare field definition. Each is spelled out here on the object, before anything is
  read (`spellOut`). The object is then the same view (`sameReading_spellOut`), whatever else is
  written in it.
-/

namespace ChartLowering.Schema

/-- A mark by its name, as an object with a type. -/
def longMark : Json → Json
  | .str s => .obj [("type", .str s)]
  | j => j

/-- A bare field definition, as the definition of the one facet. -/
def longFacet : Json → Json
  | .obj ds => if (OrderedMap.mk ds).contains "field" then .obj [("facet", .obj ds)] else .obj ds
  | j => j

/-- The fields of a concatenation with its views moved to the key `concat`, in a given direction. -/
def turned (fs : Fields) (key : String) (direction : Direction) : Fields :=
  match fs.get? key with
  | some views =>
    ((fs.filterKeys (· != key)).insert "concat" views).insert "direction" (.str direction.name)
  | none => fs

def longConcat (fs : Fields) : Fields :=
  if fs.contains "concat" then fs
  else if fs.contains "hconcat" then turned fs "hconcat" .horizontal
  else turned fs "vconcat" .vertical

/-- The fields of a view with its shorthand spelled out. -/
def spellOut (fs : Fields) : Fields :=
  match viewKind? fs with
  | some .unit => fs.adjust "mark" longMark
  | some .facet => fs.adjust "facet" longFacet
  | some .concat => longConcat fs
  | _ => fs

/-! ## What is read -/

section Reading

variable {fs : Fields}

theorem readMark_longMark (j : Json) : readMark (longMark j) = readMark j := by
  cases j <;> rfl

theorem readFacetMapping_longFacet (j : Json) :
    readFacetMapping (longFacet j) = readFacetMapping j := by
  cases j with
  | obj ds =>
    show readFacetMapping (if (OrderedMap.mk ds).contains "field" then _ else _) = _
    split
    · rename_i hfield
      show readFacetFields (facetFields ⟨[("facet", .obj ds)]⟩) = readFacetFields (facetFields ⟨ds⟩)
      unfold facetFields
      rw [if_pos hfield]
      rfl
    · rfl
  | null | bool | num | str | arr | table => rfl

theorem requiredField_adjust {α : Type} {read : Reading α} {f : Json → Json}
    (hf : ∀ j, read (f j) = read j) (fs : Fields) (k : String) :
    requiredField (fs.adjust k f) k read = requiredField fs k read := by
  unfold requiredField
  rw [OrderedMap.get?_adjust, if_pos rfl]
  cases fs.get? k with
  | none => rfl
  | some j =>
    show (read (f j)).underKey k = (read j).underKey k
    rw [hf]

theorem viewKind?_adjust (fs : Fields) (k : String) (f : Json → Json) :
    viewKind? (fs.adjust k f) = viewKind? fs := by
  unfold viewKind?
  simp only [OrderedMap.contains_adjust]

theorem viewKind?_eq_concat (h : viewKind? fs = some .concat) :
    fs.contains "mark" = false ∧ fs.contains "layer" = false ∧ fs.contains "facet" = false ∧
      (fs.contains "concat" || fs.contains "hconcat" || fs.contains "vconcat") = true := by
  unfold viewKind? at h
  split at h
  · cases h
  · rename_i hmark
    split at h
    · cases h
    · rename_i hlayer
      split at h
      · cases h
      · rename_i hfacet
        split at h
        · rename_i hconcat
          exact ⟨Bool.eq_false_iff.2 hmark, Bool.eq_false_iff.2 hlayer, Bool.eq_false_iff.2 hfacet,
            hconcat⟩
        · cases h

/-- What is found in a concatenation whose views were moved. -/
theorem get?_turned {key : String} {views : Json} (hviews : fs.get? key = some views)
    (direction : Direction) (k : String) :
    (turned fs key direction).get? k =
      if k = "direction" then some (.str direction.name)
      else if k = "concat" then some views
      else if k = key then none
      else fs.get? k := by
  unfold turned
  simp only [hviews]
  rw [OrderedMap.get?_insert, OrderedMap.get?_insert, OrderedMap.get?_filterKeys]
  by_cases hk : k = key <;> simp [hk]

/-- Views that are moved from a key that stands for a direction are read as before. -/
theorem sameReading_turned (hkind : viewKind? fs = some .concat) {key : String}
    {direction : Direction} (hkey : concatKey fs = (key, some direction))
    (hone : key = "hconcat" ∨ key = "vconcat") (hcontains : fs.contains key = true) :
    SameReading fs (turned fs key direction) := by
  obtain ⟨views, hviews⟩ := Option.isSome_iff_exists.1 hcontains
  have hget := get?_turned hviews direction
  obtain ⟨hmark, hlayer, hfacet, -⟩ := viewKind?_eq_concat hkind
  have hmoved : (turned fs key direction).contains "concat" = true := by
    unfold OrderedMap.contains
    rw [hget]
    rfl
  have hkept : ∀ k, k ≠ "direction" → k ≠ "concat" → k ≠ key →
      (turned fs key direction).get? k = fs.get? k := by
    intro k hdirection hconcat hk
    rw [hget, if_neg hdirection, if_neg hconcat, if_neg hk]
  have habsent : ∀ k, k ≠ "direction" → k ≠ "concat" → k ≠ key → fs.contains k = false →
      (turned fs key direction).contains k = false := by
    intro k hdirection hconcat hk hnone
    unfold OrderedMap.contains at hnone ⊢
    rw [hkept k hdirection hconcat hk, hnone]
  refine ⟨?kind, fun k hk => ?shared, fun kind hkind' => ?parts⟩
  case kind =>
    rw [hkind]
    unfold viewKind?
    rw [habsent "mark" (by decide) (by decide) (by rcases hone with rfl | rfl <;> decide) hmark,
      habsent "layer" (by decide) (by decide) (by rcases hone with rfl | rfl <;> decide) hlayer,
      habsent "facet" (by decide) (by decide) (by rcases hone with rfl | rfl <;> decide) hfacet,
      hmoved]
    rfl
  case shared =>
    have hapart : ∀ k ∈ sharedKeys, k ≠ "direction" ∧ k ≠ "concat" ∧ k ≠ "hconcat" ∧
        k ≠ "vconcat" := by
      decide
    obtain ⟨hdirection, hconcat, hhconcat, hvconcat⟩ := hapart k hk
    exact hkept k hdirection hconcat (by rcases hone with rfl | rfl <;> assumption)
  case parts =>
    obtain rfl := Option.some.inj (hkind.symm.trans hkind')
    have hnow : concatKey (turned fs key direction) = ("concat", none) := by
      unfold concatKey
      rw [if_pos hmoved]
    refine ⟨?_, ?_⟩
    · unfold viewsUnder
      rw [hnow, hkey, hget, hviews]
      rfl
    · unfold directionOf
      rw [hnow, hkey]
      unfold optionalField
      rw [hget]
      cases direction <;> rfl

theorem sameReading_longConcat (hkind : viewKind? fs = some .concat) :
    SameReading fs (longConcat fs) := by
  obtain ⟨-, -, -, hconcat⟩ := viewKind?_eq_concat hkind
  unfold longConcat
  split
  · exact .of_get? fun _ _ => rfl
  · rename_i hno
    split
    · rename_i hh
      refine sameReading_turned hkind ?_ (Or.inl rfl) hh
      unfold concatKey
      rw [if_neg hno, if_pos hh]
    · rename_i hnoh
      have hv : fs.contains "vconcat" = true := by
        rw [Bool.eq_false_iff.2 hno, Bool.eq_false_iff.2 hnoh] at hconcat
        exact hconcat
      refine sameReading_turned hkind ?_ (Or.inr rfl) hv
      unfold concatKey
      rw [if_neg hno, if_neg hnoh, if_pos hv]

/-- A view is read as before when its shorthand is spelled out. -/
theorem sameReading_spellOut (fs : Fields) : SameReading fs (spellOut fs) := by
  have hadjust : ∀ {k : String} {f : Json → Json}, k ∉ sharedKeys →
      (∀ kind, viewKind? fs = some kind → SameParts fs (fs.adjust k f) kind) →
        SameReading fs (fs.adjust k f) := by
    intro k f hk hparts
    refine ⟨viewKind?_adjust fs k f, fun j hj => ?_, hparts⟩
    exact OrderedMap.get?_adjust_of_ne fs f fun hjk => hk (hjk ▸ hj)
  unfold spellOut
  cases hkind : viewKind? fs with
  | none => exact .of_get? fun _ _ => rfl
  | some kind =>
    cases kind with
    | layer => exact .of_get? fun _ _ => rfl
    | concat => exact sameReading_longConcat hkind
    | unit =>
      refine hadjust (by decide) fun kind hkind' => ?_
      obtain rfl := Option.some.inj (hkind.symm.trans hkind')
      exact requiredField_adjust readMark_longMark fs "mark"
    | facet =>
      refine hadjust (by decide) fun kind hkind' => ?_
      obtain rfl := Option.some.inj (hkind.symm.trans hkind')
      refine ⟨requiredField_adjust readFacetMapping_longFacet fs "facet", ?_⟩
      unfold viewUnder
      rw [OrderedMap.get?_adjust_of_ne fs longFacet (by decide)]

/-! ## What is kept -/

theorem get?_spellOut_of_notMem (fs : Fields) {k : String} (hk : k ∉ viewKeys) :
    (spellOut fs).get? k = fs.get? k := by
  have hne {k' : String} (hk' : k' ∈ viewKeys) : k ≠ k' := fun h => hk (h ▸ hk')
  have hturned : ∀ key ∈ viewKeys, ∀ direction, (turned fs key direction).get? k = fs.get? k := by
    intro key hkey direction
    cases hviews : fs.get? key with
    | none => rw [turned, hviews]
    | some views =>
      rw [get?_turned hviews, if_neg (hne (by decide)), if_neg (hne (by decide)),
        if_neg (hne hkey)]
  unfold spellOut
  split
  · exact OrderedMap.get?_adjust_of_ne fs longMark (hne (by decide))
  · exact OrderedMap.get?_adjust_of_ne fs longFacet (hne (by decide))
  · unfold longConcat
    split
    · rfl
    · split
      · exact hturned "hconcat" (by decide) .horizontal
      · exact hturned "vconcat" (by decide) .vertical
  · rfl

theorem distinctKeys_longMark (j : Json) (h : j.distinctKeys = true) :
    (longMark j).distinctKeys = true := by
  cases j with
  | str s => simp [longMark, Json.distinctKeys, Json.distinctKeysFields]
  | null | bool | num | arr | obj | table => exact h

theorem distinctKeys_longFacet (j : Json) (h : j.distinctKeys = true) :
    (longFacet j).distinctKeys = true := by
  cases j with
  | obj ds =>
    rw [longFacet]
    split
    · show (Json.ofFields ⟨[("facet", .obj ds)]⟩).distinctKeys = true
      refine Json.distinctKeys_ofFields.2 ⟨by simp [OrderedMap.keys], ?_⟩
      exact fun v hv => by rwa [List.mem_singleton.1 hv]
    · exact h
  | null | bool | num | str | arr | table => exact h

theorem distinctKeys_turned (h : (Json.ofFields fs).distinctKeys = true) (key : String)
    (direction : Direction) : (Json.ofFields (turned fs key direction)).distinctKeys = true := by
  unfold turned
  split
  · rename_i views hviews
    have hmoved := Json.distinctKeys_insert (Json.distinctKeys_filterKeys h (· != key)) "concat"
      (Json.distinctKeys_of_get? h hviews)
    exact Json.distinctKeys_insert hmoved "direction" rfl
  · exact h

theorem distinctKeys_spellOut (h : (Json.ofFields fs).distinctKeys = true) :
    (Json.ofFields (spellOut fs)).distinctKeys = true := by
  unfold spellOut
  split
  · exact Json.distinctKeys_adjust h "mark" distinctKeys_longMark
  · exact Json.distinctKeys_adjust h "facet" distinctKeys_longFacet
  · unfold longConcat
    split
    · exact h
    · split
      · exact distinctKeys_turned h "hconcat" .horizontal
      · exact distinctKeys_turned h "vconcat" .vertical
  · exact h

end Reading

end ChartLowering.Schema
