import ChartLowering.Proofs.Similar.Reading

/-
  Reading specifications that differ in the order of keys.

  The keys of a value decide which kind of view it is read as, and each part is looked up by its key,
  so values that differ in the order of keys are read as specifications that are alike
  (`readTopLevel_alike`): with data that differ in the order of keys (`DataSpec.arranged`) and with
  everything else of one sketch.
-/

namespace ChartLowering

/-! ## Data -/

def DataOrigin.arranged (p : Place) : DataOrigin → DataOrigin
  | .values rows => .values (rows.map (Fields.arranged p))
  | origin => origin

/-- The definition with the keys of rows and format sorted where the order does not count. -/
def DataSpec.arranged (p : Place) (d : DataSpec) : DataSpec :=
  ⟨d.origin.arranged p, d.format.map (Fields.arranged p)⟩

/-- Two specifications that are alike, and declare rows that differ in the order of keys. -/
structure TopLevelSpec.SameButOrder (t t' : TopLevelSpec) : Prop where
  alike : t.Alike .free (fun d d' => d.arranged .free = d'.arranged .free) t'
  datasets : ∀ n, Option.Rel
    (List.Forall₂ fun row row' : Fields => row.arranged .free = row'.arranged .free)
    (t.datasets.get? n) (t'.datasets.get? n)

namespace Schema

variable {α : Type} {p : Place}

/-- The source that a definition has follows from what is read under its keys. -/
theorem dataOrigin_alike {values values' : Option (List Fields)} {url url' name name' : Option String}
    (hvalues : Option.Rel
      (List.Forall₂ fun row row' : Fields => row.arranged p = row'.arranged p) values values')
    (hurl : url = url') (hname : name = name') {o o' : DataOrigin}
    (ho : dataOrigin values url name = .valid o) (ho' : dataOrigin values' url' name' = .valid o') :
    o.arranged p = o'.arranged p := by
  subst hurl hname
  cases hvalues with
  | none => rw [Check.valid.inj (ho.symm.trans ho')]
  | @some rows rows' hrows =>
    cases url with
    | some address => cases ho
    | none =>
      cases name with
      | some n => cases ho
      | none =>
        obtain rfl := Check.valid.inj ho
        obtain rfl := Check.valid.inj ho'
        exact congrArg DataOrigin.values (map_eq_map_of_forall₂ hrows)

theorem respects_readData :
    Respects .free (fun d d' => d.arranged .free = d'.arranged .free) readData := by
  have hrecord : Respects .free (fun d d' => d.arranged .free = d'.arranged .free)
      (readRecord readDataFields) := by
    refine .record (.andThen (R := fun x x' =>
      Option.Rel (List.Forall₂ fun row row' : Fields => row.arranged .free = row'.arranged .free)
        x.1 x'.1 ∧ x.2.1 = x'.2.1 ∧
        x.2.2.1.map (Fields.arranged .free) = x'.2.2.1.map (Fields.arranged .free) ∧
        x.2.2.2 = x'.2.2.2) ?_ ?_)
    · refine .seq ?_ (.irrelevant _)
      refine .seq ?_ (.nullable (q := .free) rfl respects_readString)
      refine .seq ?_ (.nullable (q := .free) rfl respects_readObject)
      refine .seq ?_ (.nullable (q := .free) rfl respects_readString)
      refine .map (.nullable (q := .free) rfl respects_readRows) ?_
      rintro values values' hvalues url url' hurl format format' hformat name name' hname ⟨⟩ ⟨⟩ -
      exact ⟨hvalues, eq_of_rel hurl, map_eq_of_rel hformat, eq_of_rel hname⟩
    · rintro fs fs' ⟨values, url, format, name⟩ ⟨values', url', format', name'⟩ d d'
        ⟨hvalues, hurl, hformat, hname⟩ hd hd'
      obtain ⟨o, ho, rfl⟩ := Check.map_eq_valid_iff.1 hd
      obtain ⟨o', ho', rfl⟩ := Check.map_eq_valid_iff.1 hd'
      show DataSpec.mk _ _ = DataSpec.mk _ _
      rw [dataOrigin_alike hvalues hurl hname ho ho', hformat]
  intro j j' d d' hj hd hd'
  rcases Json.arranged_cases hj with rfl | ⟨l, l', rfl, rfl⟩ | ⟨l, l', rfl, rfl⟩ | ⟨l, l', rfl, rfl⟩
  · rw [Check.valid.inj (hd.symm.trans hd')]
  · cases hd
  · exact hrecord _ _ d d' hj hd hd'
  · obtain ⟨rows, hrows, rfl⟩ := Check.map_eq_valid_iff.1 hd
    obtain ⟨rows', hrows', rfl⟩ := Check.map_eq_valid_iff.1 hd'
    have hsame := map_eq_map_of_forall₂
      (readItems_alike respects_readObject (Json.table.inj hj) hrows hrows')
    exact congrArg (fun rows => DataSpec.mk (.values rows) none) hsame

/-! ## Parts of views -/

theorem respects_readResolve : Respects .free (fun r r' => r.sketch = r'.sketch) readResolve := by
  refine .record (.seq ?_ (.irrelevant _))
  refine .seq ?_ (.optional (q := .free) rfl respects_readModeMap rfl)
  refine .seq ?_ (.optional (q := .free) rfl respects_readModeMap rfl)
  refine .map (.optional (q := .free) rfl respects_readModeMap rfl) ?_
  rintro scale scale' hscale axis axis' haxis legend legend' hlegend ⟨⟩ ⟨⟩ -
  show ResolveSpec.mk _ _ _ = ResolveSpec.mk _ _ _
  rw [hscale, haxis, hlegend]

theorem respects_readFacetMapping :
    Respects .free (fun m m' => m.sketch = m'.sketch) readFacetMapping := by
  have hread : FieldsRespect .free (fun m m' => m.sketch = m'.sketch) readFacetFields := by
    refine .seq ?_ (.irrelevant _)
    refine .seq ?_ (.nullable (q := .free) rfl respects_facetChannel)
    refine .seq ?_ (.nullable (q := .free) rfl respects_facetChannel)
    refine .map (.nullable (q := .free) rfl respects_facetChannel) ?_
    rintro row row' hrow column column' hcolumn facet facet' hfacet ⟨⟩ ⟨⟩ -
    show FacetMapping.mk _ _ _ = FacetMapping.mk _ _ _
    rw [map_eq_of_rel hrow, map_eq_of_rel hcolumn, map_eq_of_rel hfacet]
  refine .record fun fs fs' m m' hfs => hread _ _ m m' ?_
  unfold facetFields
  rw [contains_alike hfs]
  split
  · show OrderedMap.mk [("facet", Json.arranged .free (.ofFields fs))] =
      ⟨[("facet", Json.arranged .free (.ofFields fs'))]⟩
    rw [Fields.arranged_iff_ofFields.1 hfs]
  · exact hfs

theorem fieldsRespect_readBase : FieldsRespect .view
    (ViewBase.Alike fun d d' => d.arranged .free = d'.arranged .free) readBase := by
  refine .seq ?_ (.optional (q := .free) (by decide) respects_readSize rfl)
  refine .seq ?_ (.optional (q := .free) (by decide) respects_readSize rfl)
  refine .seq ?_ (.nullable (q := .free) (by decide) respects_readData)
  refine .map (.nullable (q := .free) (by decide) respects_readString) ?_
  intro name name' hname data data' hdata width width' hwidth height height' hheight
  exact ⟨eq_of_rel hname, hwidth, hheight, hdata⟩

theorem fieldsRespect_readUnit : FieldsRespect .view
    (ViewSpec.Alike .free fun d d' => d.arranged .free = d'.arranged .free) readUnit := by
  refine .seq ?_ (.nullable (q := .free) (by decide) respects_readObject)
  refine .seq ?_ (.optional (q := .encoding) (by decide) respects_readEncoding rfl)
  refine .seq ?_ (.required (q := .free) (by decide) respects_readMark)
  refine .map fieldsRespect_readBase ?_
  intro base base' hbase mark mark' hmark encoding encoding' hencoding projection projection'
    hprojection
  refine .unit hbase ?_
  show UnitSpec.mk _ _ _ = UnitSpec.mk _ _ _
  rw [hmark, hencoding, map_eq_of_rel hprojection]

/-! ## Child views -/

/-- Views read of values that differ in the order of keys. -/
abbrev SameView : ViewSpec → ViewSpec → Prop :=
  ViewSpec.Alike .free fun d d' => d.arranged .free = d'.arranged .free

abbrev SameViews : List ViewSpec → List ViewSpec → Prop :=
  ViewSpec.AlikeAll .free fun d d' => d.arranged .free = d'.arranged .free

/-- Whether a value and any that differs from it in the order of keys are read as alike views, both as
a view and as a list of views. -/
structure ReadAlike (j : Json) : Prop where
  one : ∀ j' v v', j.arranged .view = j'.arranged .view → readView j = .valid v →
    readView j' = .valid v' → SameView v v'
  many : ∀ j' vs vs', j.arranged .view = j'.arranged .view → readViews j = .valid vs →
    readViews j' = .valid vs' → SameViews vs vs'

/-- Values that are no views. -/
theorem ReadAlike.of_invalid {j : Json} (hone : ∀ v, readView j ≠ .valid v)
    (hmany : ∀ vs, readViews j ≠ .valid vs) : ReadAlike j :=
  ⟨fun _ v _ _ hv _ => absurd hv (hone v), fun _ vs _ _ hvs _ => absurd hvs (hmany vs)⟩

section Kinds

variable {fs fs' : Fields} {v v' : ViewSpec} {vs vs' : List ViewSpec}
  (h : fs.arranged .view = fs'.arranged .view) (hkids : ∀ e ∈ fs.entries, ReadAlike e.2)

include h hkids

/-- The values under one key, and how they are read. -/
theorem requiredNested_alike {k : String} (hk : Place.view.below k = .view) {read : Nested → Check α}
    {x x' : α} (hx : requiredNested (nestedViews fs.entries) k read = .valid x)
    (hx' : requiredNested (nestedViews fs'.entries) k read = .valid x') :
    ∃ j j', ReadAlike j ∧ j.arranged .view = j'.arranged .view ∧
      read ⟨fun _ => readView j, fun _ => readViews j⟩ = .valid x ∧
      read ⟨fun _ => readView j', fun _ => readViews j'⟩ = .valid x' := by
  have hget := get?_alike h k
  rw [hk] at hget
  unfold requiredNested at hx hx'
  rw [nestedViews_find?] at hx hx'
  rcases cases_of_map_eq_map hget with ⟨hj, -⟩ | ⟨j, j', hj, hj', hjj'⟩
  · rw [show OrderedMap.find? k fs.entries = none from hj] at hx
    cases hx
  · rw [show OrderedMap.find? k fs.entries = some j from hj] at hx
    rw [show OrderedMap.find? k fs'.entries = some j' from hj'] at hx'
    exact ⟨j, j', hkids _ (OrderedMap.mem_of_find? hj), hjj', hx, hx'⟩

theorem readLayer_alike (hv : readLayer (nestedViews fs.entries) fs = .valid v)
    (hv' : readLayer (nestedViews fs'.entries) fs' = .valid v') : SameView v v' := by
  unfold readLayer at hv hv'
  simp only [Check.seq_eq_valid_iff, Check.map_eq_valid_iff, Check.underKey_eq_valid_iff] at hv hv'
  obtain ⟨_, r, ⟨_, vs, ⟨b, hb, rfl⟩, hvs, rfl⟩, hr, rfl⟩ := hv
  obtain ⟨_, r', ⟨_, vs', ⟨b', hb', rfl⟩, hvs', rfl⟩, hr', rfl⟩ := hv'
  obtain ⟨j, j', hj, hjj', hread, hread'⟩ := requiredNested_alike h hkids (by decide) hvs hvs'
  exact .layer (fieldsRespect_readBase _ _ b b' h hb hb') (hj.many j' vs vs' hjj' hread hread')
    (FieldsRespect.optional (q := .free) (by decide) respects_readResolve rfl _ _ r r' h hr hr')

theorem readFacet_alike (hv : readFacet (nestedViews fs.entries) fs = .valid v)
    (hv' : readFacet (nestedViews fs'.entries) fs' = .valid v') : SameView v v' := by
  unfold readFacet at hv hv'
  simp only [Check.seq_eq_valid_iff, Check.map_eq_valid_iff, Check.underKey_eq_valid_iff] at hv hv'
  obtain ⟨_, r, ⟨_, w, ⟨_, m, ⟨b, hb, rfl⟩, hm, rfl⟩, hw, rfl⟩, hr, rfl⟩ := hv
  obtain ⟨_, r', ⟨_, w', ⟨_, m', ⟨b', hb', rfl⟩, hm', rfl⟩, hw', rfl⟩, hr', rfl⟩ := hv'
  obtain ⟨j, j', hj, hjj', hread, hread'⟩ := requiredNested_alike h hkids (by decide) hw hw'
  exact .facet (fieldsRespect_readBase _ _ b b' h hb hb')
    (FieldsRespect.required (q := .free) (by decide) respects_readFacetMapping _ _ m m' h hm hm')
    (hj.one j' w w' hjj' hread hread')
    (FieldsRespect.optional (q := .free) (by decide) respects_readResolve rfl _ _ r r' h hr hr')

omit hkids in
theorem concatKey_alike : concatKey fs = concatKey fs' := by
  unfold concatKey
  simp only [contains_alike h]

theorem readConcat_alike (hv : readConcat (nestedViews fs.entries) fs = .valid v)
    (hv' : readConcat (nestedViews fs'.entries) fs' = .valid v') : SameView v v' := by
  have hkey : Place.view.below (concatKey fs).1 = .view := by
    unfold concatKey
    split
    · decide
    · split
      · decide
      · split <;> decide
  unfold readConcat at hv hv'
  rw [← concatKey_alike h] at hv'
  simp only [Check.seq_eq_valid_iff, Check.map_eq_valid_iff, Check.underKey_eq_valid_iff] at hv hv'
  obtain ⟨_, r, ⟨_, d, ⟨_, vs, ⟨b, hb, rfl⟩, hvs, rfl⟩, -, rfl⟩, hr, rfl⟩ := hv
  obtain ⟨_, r', ⟨_, d', ⟨_, vs', ⟨b', hb', rfl⟩, hvs', rfl⟩, -, rfl⟩, hr', rfl⟩ := hv'
  obtain ⟨j, j', hj, hjj', hread, hread'⟩ := requiredNested_alike h hkids hkey hvs hvs'
  exact .concat (fieldsRespect_readBase _ _ b b' h hb hb') (hj.many j' vs vs' hjj' hread hread')
    (FieldsRespect.optional (q := .free) (by decide) respects_readResolve rfl _ _ r r' h hr hr')

omit hkids in
theorem viewKind?_alike : viewKind? fs = viewKind? fs' := by
  unfold viewKind?
  simp only [contains_alike h]

theorem readKind_alike (kind : ViewKind)
    (hv : readKind kind (nestedViews fs.entries) fs = .valid v)
    (hv' : readKind kind (nestedViews fs'.entries) fs' = .valid v') : SameView v v' := by
  cases kind with
  | unit => exact fieldsRespect_readUnit _ _ v v' h hv hv'
  | layer => exact readLayer_alike h hkids hv hv'
  | facet => exact readFacet_alike h hkids hv hv'
  | concat => exact readConcat_alike h hkids hv hv'

end Kinds

mutual

/-- A value and any that differs from it in the order of keys are read as alike views. -/
theorem readAlike : ∀ j : Json, ReadAlike j
  | .null | .bool _ | .num _ | .str _ | .table _ => .of_invalid (fun _ => nofun) fun _ => nofun
  | .arr items => by
    refine ⟨fun j' v v' _ hv _ => (by cases hv), fun j' vs vs' h hvs hvs' => ?_⟩
    cases j' with
    | arr items' => exact readViewItems_alike items (Json.arr.inj h) hvs hvs'
    | null | bool | num | str | obj | table => cases h
  | .obj fs => by
    refine ⟨fun j' v v' h hv hv' => ?_, fun j' vs vs' _ hvs _ => by cases hvs⟩
    cases j' with
    | obj fs' =>
      have hfs := arranged_of_obj h
      rw [readView] at hv hv'
      rw [← viewKind?_alike hfs] at hv'
      cases hkind : viewKind? ⟨fs⟩ with
      | none => rw [hkind] at hv; cases hv
      | some kind =>
        rw [hkind] at hv hv'
        rw [Check.underKey_eq_valid_iff] at hv hv'
        exact readKind_alike hfs (readAlike_fields fs) kind hv hv'
    | null | bool | num | str | arr | table => cases h

theorem readViewItems_alike : ∀ (items : List Json) {items' : List Json} {i i' : Nat}
    {vs vs' : List ViewSpec}, Json.arrangedItems .view items = Json.arrangedItems .view items' →
    readViewItems i items = .valid vs → readViewItems i' items' = .valid vs' → SameViews vs vs'
  | [], [], _, _, _, _, _, hvs, hvs' => by
    obtain rfl := Check.valid.inj hvs
    obtain rfl := Check.valid.inj hvs'
    exact .nil
  | [], j' :: rest', _, _, _, _, h, _, _ => nomatch h
  | j :: rest, [], _, _, _, _, h, _, _ => nomatch h
  | j :: rest, j' :: rest', _, _, _, _, h, hvs, hvs' => by
    obtain ⟨hj, hrest⟩ := List.cons.inj h
    rw [readViewItems] at hvs hvs'
    simp only [Check.seq_eq_valid_iff, Check.map_eq_valid_iff, Check.under_eq_valid_iff] at hvs hvs'
    obtain ⟨_, ws, ⟨v, hv, rfl⟩, hws, rfl⟩ := hvs
    obtain ⟨_, ws', ⟨v', hv', rfl⟩, hws', rfl⟩ := hvs'
    exact .cons ((readAlike j).one j' v v' hj hv hv') (readViewItems_alike rest hrest hws hws')

theorem readAlike_fields : ∀ fs : List (String × Json), ∀ e ∈ fs, ReadAlike e.2
  | [], _, he => absurd he List.not_mem_nil
  | (_, j) :: rest, e, he => by
    rcases List.mem_cons.1 he with rfl | he
    · exact readAlike j
    · exact readAlike_fields rest e he

end

/-! ## Whole specifications -/

theorem respects_readConfig :
    Respects .free (fun c c' => c.sketch .free = c'.sketch .free) readConfig := by
  have hsize : ∀ key otherKey : String, FieldsRespect .free Eq
      fun fs => readSizeField fs key otherKey := by
    intro key otherKey fs fs' x x' hfs hx hx'
    unfold readSizeField at hx hx'
    simp only at hx hx'
    rw [← contains_alike hfs] at hx'
    have hfield : ∀ k, FieldsRespect .free (Option.Rel Eq) fun fs => nullableField fs k readNumber :=
      fun k => .nullable rfl respects_readNumber
    split at hx
    · rename_i hkey
      rw [if_pos hkey] at hx'
      exact eq_of_rel (hfield key fs fs' x x' hfs hx hx')
    · rename_i hkey
      rw [if_neg hkey] at hx'
      exact eq_of_rel (hfield otherKey fs fs' x x' hfs hx hx')
  have hview : Respects .free Eq readViewConfig := by
    refine .record (.seq (.map (hsize _ _) ?_) (hsize _ _))
    rintro width _ rfl height _ rfl
    rfl
  refine .record (.seq ?_ (.optional (q := .free) rfl hview rfl))
  refine .seq ?_ (.optional (q := .free) rfl respects_readObject rfl)
  refine .seq ?_ (.optional (q := .free) rfl respects_readObject rfl)
  refine .seq ?_ (.optional (q := .free) rfl respects_readObject rfl)
  refine .map (.optional (q := .free) rfl respects_readObject rfl) ?_
  intro projection projection' hprojection scale scale' hscale axis axis' haxis legend legend'
    hlegend view view' hview
  show Config.mk _ _ _ _ _ = Config.mk _ _ _ _ _
  rw [hprojection, hscale, haxis, hlegend, hview]

/-- The view is lifted out of fields that differ in order as fields that differ in order. -/
theorem arranged_topLevelFields {fs fs' : Fields} (h : fs.arranged .view = fs'.arranged .view) :
    (topLevelFields fs).arranged .view = (topLevelFields fs').arranged .view := by
  unfold topLevelFields
  rw [← viewKind?_alike h]
  split
  · exact h
  · have hview := Fields.arranged_iff_ofFields.1 (Fields.arranged_filterKeys h fun k =>
      !(["$schema", "datasets", "config"].contains k))
    have hrest := OrderedMap.mk.inj (Fields.arranged_filterKeys h fun k =>
      k == "datasets" || k == "config")
    refine congrArg OrderedMap.mk ?_
    rw [Json.arrangedFields, Json.arrangedFields, hrest]
    exact congrArg (fun j => Place.view.enter ("view", j) _) hview

/-- Values that differ in the order of keys are read as specifications that differ in nothing but
what no sketch keeps. -/
theorem readTopLevel_alike : Respects .view TopLevelSpec.SameButOrder readTopLevel := by
  have hread : FieldsRespect .view TopLevelSpec.SameButOrder readTopLevelFields := by
    refine .seq ?_ (.irrelevant _)
    refine .seq ?_ (.optional (q := .free) (by decide) respects_readConfig rfl)
    refine .seq ?_ (.optional (q := .free) (by decide) respects_readDatasets fun _ => .none)
    refine .map (.required (q := .view) (by decide) fun j => (readAlike j).one) ?_
    rintro view view' hview datasets datasets' hdatasets config config' hconfig ⟨⟩ ⟨⟩ -
    exact ⟨⟨hview, hconfig⟩, hdatasets⟩
  exact .record fun fs fs' t t' hfs => hread _ _ t t' (arranged_topLevelFields hfs)

end Schema

end ChartLowering
