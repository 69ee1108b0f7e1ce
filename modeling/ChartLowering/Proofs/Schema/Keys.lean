import ChartLowering.Proofs.Schema.Accepted

/-
  What a view is read from.

  The keys of an object decide which kind of view it is, and a view of each kind is read from a few
  keys: those that all kinds have in common, and those of its own (`SameParts`). So objects under
  whose keys the same is read are one view (`SameReading.readView_eq`), and other keys do not count
  (`readView_filterKeys`). A specification that stands as its view is read from that view, its
  datasets and its configuration (`readTopLevelFields_of_plain`).
-/

namespace ChartLowering.Schema

/-! ## Views -/

section Views

variable {α : Type} {fs gs : Fields}

theorem requiredField_congr {k : String} {read : Reading α} (h : gs.get? k = fs.get? k) :
    requiredField gs k read = requiredField fs k read := by
  unfold requiredField
  rw [h]

theorem optionalField_congr {k : String} {dflt : α} {read : Reading α}
    (h : gs.get? k = fs.get? k) : optionalField gs k dflt read = optionalField fs k dflt read := by
  unfold optionalField
  rw [h]

/-- The list of views under a key. -/
def viewsUnder (fs : Fields) (k : String) : Check (List ViewSpec) :=
  match fs.get? k with
  | some j => readViews j
  | none => .fail .missing

/-- The one view under a key. -/
def viewUnder (fs : Fields) (k : String) : Check ViewSpec :=
  match fs.get? k with
  | some j => readView j
  | none => .fail .missing

theorem requiredNested_many (fs : Fields) (k : String) :
    requiredNested (nestedViews fs.entries) k (fun n => n.many ()) = viewsUnder fs k := by
  unfold requiredNested viewsUnder OrderedMap.get?
  rw [nestedViews_find?]
  cases OrderedMap.find? k fs.entries <;> rfl

theorem requiredNested_one (fs : Fields) (k : String) :
    requiredNested (nestedViews fs.entries) k (fun n => n.one ()) = viewUnder fs k := by
  unfold requiredNested viewUnder OrderedMap.get?
  rw [nestedViews_find?]
  cases OrderedMap.find? k fs.entries <;> rfl

theorem concatKey_mem (fs : Fields) : (concatKey fs).1 ∈ ["concat", "hconcat", "vconcat"] := by
  unfold concatKey
  split
  · decide
  · split
    · decide
    · split <;> decide

/-- The direction of a concatenation: the one that its key stands for, or the one that is given. -/
def directionOf (fs : Fields) : Check Direction :=
  match (concatKey fs).2 with
  | some d => .valid d
  | none => optionalField fs "direction" .wrap readDirection

/-- The keys under which there is neither shorthand nor a view. -/
def sharedKeys : List String :=
  ["name", "data", "width", "height", "encoding", "projection", "resolve"]

/-- Whether what is peculiar to views of a kind is read alike. -/
def SameParts (fs gs : Fields) : ViewKind → Prop
  | .unit => requiredField gs "mark" readMark = requiredField fs "mark" readMark
  | .layer => viewsUnder gs "layer" = viewsUnder fs "layer"
  | .facet =>
    requiredField gs "facet" readFacetMapping = requiredField fs "facet" readFacetMapping ∧
      viewUnder gs "spec" = viewUnder fs "spec"
  | .concat =>
    viewsUnder gs (concatKey gs).1 = viewsUnder fs (concatKey fs).1 ∧
      directionOf gs = directionOf fs

/-- Whether two objects are views of one kind, and read alike. -/
structure SameReading (fs gs : Fields) : Prop where
  kind : viewKind? gs = viewKind? fs
  shared : ∀ k ∈ sharedKeys, gs.get? k = fs.get? k
  parts : ∀ kind, viewKind? fs = some kind → SameParts fs gs kind

theorem SameParts.trans {hs : Fields} {kind : ViewKind} (h : SameParts fs gs kind)
    (h' : SameParts gs hs kind) : SameParts fs hs kind := by
  cases kind with
  | unit | layer => exact Eq.trans h' h
  | facet | concat => exact ⟨h'.1.trans h.1, h'.2.trans h.2⟩

theorem SameReading.trans {hs : Fields} (h : SameReading fs gs) (h' : SameReading gs hs) :
    SameReading fs hs where
  kind := h'.kind.trans h.kind
  shared := fun k hk => (h'.shared k hk).trans (h.shared k hk)
  parts := fun kind hkind => (h.parts kind hkind).trans (h'.parts kind (h.kind.trans hkind))

theorem SameReading.readKind_eq (h : SameReading fs gs) {kind : ViewKind}
    (hkind : viewKind? fs = some kind) :
    readKind kind (nestedViews gs.entries) gs = readKind kind (nestedViews fs.entries) fs := by
  have hparts := h.parts kind hkind
  have hshared {k : String} (hk : k ∈ sharedKeys) : gs.get? k = fs.get? k := h.shared k hk
  have hbase : readBase gs = readBase fs := by
    unfold readBase nullableField
    rw [optionalField_congr (hshared (k := "name") (by decide)),
      optionalField_congr (hshared (k := "data") (by decide)),
      optionalField_congr (hshared (k := "width") (by decide)),
      optionalField_congr (hshared (k := "height") (by decide))]
  have hresolve : optionalField gs "resolve" .silent readResolve =
      optionalField fs "resolve" .silent readResolve :=
    optionalField_congr (hshared (by decide))
  cases kind with
  | unit =>
    have hmark : requiredField gs "mark" readMark = requiredField fs "mark" readMark := hparts
    unfold readKind readUnit nullableField
    rw [hbase, hmark, optionalField_congr (hshared (k := "encoding") (by decide)),
      optionalField_congr (hshared (k := "projection") (by decide))]
  | layer =>
    have hviews : viewsUnder gs "layer" = viewsUnder fs "layer" := hparts
    unfold readKind readLayer
    rw [requiredNested_many, requiredNested_many, hbase, hviews, hresolve]
  | facet =>
    obtain ⟨hmapping, hview⟩ := hparts
    unfold readKind readFacet
    rw [requiredNested_one, requiredNested_one, hbase, hmapping, hview, hresolve]
  | concat =>
    obtain ⟨hviews, hdirection⟩ := hparts
    have hconcat : ∀ fs : Fields, readConcat (nestedViews fs.entries) fs =
        ViewSpec.concat <$> readBase fs <*> (viewsUnder fs (concatKey fs).1).underKey "concat" <*>
          directionOf fs <*> optionalField fs "resolve" .silent readResolve := by
      intro fs
      rw [← requiredNested_many]
      rfl
    unfold readKind
    rw [hconcat, hconcat, hbase, hviews, hdirection, hresolve]

theorem readView_ofFields (fs : Fields) : readView (.ofFields fs) =
    (viewKind? fs).elim (.fail .noView) fun kind =>
      (readKind kind (nestedViews fs.entries) fs).underKey kind.text := by
  obtain ⟨l⟩ := fs
  unfold Json.ofFields
  rw [readView]
  cases viewKind? ⟨l⟩ <;> rfl

/-- Objects that are read alike are one view, or both none. -/
theorem SameReading.readView_eq (h : SameReading fs gs) :
    readView (.ofFields gs) = readView (.ofFields fs) := by
  rw [readView_ofFields, readView_ofFields, h.kind]
  cases hkind : viewKind? fs with
  | none => rfl
  | some kind =>
    show (readKind kind (nestedViews gs.entries) gs).underKey kind.text = _
    rw [h.readKind_eq hkind]
    rfl

/-- The keys that a view is read from. -/
def viewKeys : List String :=
  sharedKeys ++
    ["mark", "layer", "facet", "spec", "concat", "hconcat", "vconcat", "direction"]

/-- What stands under other keys does not count. -/
theorem SameReading.of_get? (h : ∀ k ∈ viewKeys, gs.get? k = fs.get? k) : SameReading fs gs := by
  have hget {k : String} (hk : k ∈ viewKeys) : gs.get? k = fs.get? k := h k hk
  have hcontains {k : String} (hk : k ∈ viewKeys) : gs.contains k = fs.contains k := by
    unfold OrderedMap.contains
    rw [h k hk]
  have hviews {k : String} (hk : k ∈ viewKeys) : viewsUnder gs k = viewsUnder fs k := by
    unfold viewsUnder
    rw [h k hk]
  have hkey : concatKey gs = concatKey fs := by
    unfold concatKey
    rw [hcontains (k := "concat") (by decide), hcontains (k := "hconcat") (by decide),
      hcontains (k := "vconcat") (by decide)]
  refine ⟨?kind, fun k hk => hget (List.mem_append_left _ hk), fun kind _ => ?parts⟩
  case kind =>
    unfold viewKind?
    rw [hcontains (k := "mark") (by decide), hcontains (k := "layer") (by decide),
      hcontains (k := "facet") (by decide), hcontains (k := "concat") (by decide),
      hcontains (k := "hconcat") (by decide), hcontains (k := "vconcat") (by decide)]
  case parts =>
    cases kind with
    | unit => exact requiredField_congr (hget (by decide))
    | layer => exact hviews (by decide)
    | facet =>
      refine ⟨requiredField_congr (hget (by decide)), ?_⟩
      unfold viewUnder
      rw [hget (k := "spec") (by decide)]
    | concat =>
      refine ⟨?_, ?_⟩
      · have hmem : ∀ k ∈ ["concat", "hconcat", "vconcat"], k ∈ viewKeys := by decide
        rw [hkey]
        exact hviews (hmem _ (concatKey_mem fs))
      · unfold directionOf
        rw [hkey, optionalField_congr (hget (k := "direction") (by decide))]

end Views

/-! ## Whole specifications -/

section TopLevel

variable {fs : Fields} {kind : ViewKind}

theorem noExtraKeys_of_subset {declared : List String} (h : ∀ k ∈ fs.keys, k ∈ declared) :
    noExtraKeys declared fs = .valid () := by
  have hnone : (fs.keys.filter fun k => !declared.contains k) = [] := by
    rw [List.filter_eq_nil_iff]
    intro k hk
    simp [h k hk]
  unfold noExtraKeys
  rw [hnone]

/-- A view is read as before without keys that it is not read from. -/
theorem readView_filterKeys {p : String → Bool} (hp : ∀ k ∈ viewKeys, p k = true) (fs : Fields) :
    readView (.ofFields (fs.filterKeys p)) = readView (.ofFields fs) := by
  refine (SameReading.of_get? fun k hk => ?_).readView_eq
  rw [OrderedMap.get?_filterKeys, if_pos (hp k hk)]

/-- A specification that stands as its view, part by part. -/
def readPlain (fs : Fields) : Check TopLevelSpec :=
  (fun view datasets config () => ⟨view, datasets, config⟩) <$>
    (readView (.ofFields fs)).underKey "view" <*>
    optionalField fs "datasets" .empty readDatasets <*>
    optionalField fs "config" .plain readConfig <*>
    .valid ()

theorem readTopLevelFields_eq_readPlain {gs : Fields}
    (hview : requiredField gs "view" readView = (readView (.ofFields fs)).underKey "view")
    (hdatasets : gs.get? "datasets" = fs.get? "datasets")
    (hconfig : gs.get? "config" = fs.get? "config") (hkeys : ∀ k ∈ gs.keys, k ∈ topLevelKeys) :
    readTopLevelFields gs = readPlain fs := by
  unfold readTopLevelFields readPlain
  rw [hview, optionalField_congr hdatasets, optionalField_congr hconfig,
    noExtraKeys_of_subset hkeys]

theorem readTopLevelFields_of_plain (h : viewKind? fs = some kind) :
    readTopLevelFields (topLevelFields fs) = readPlain fs := by
  have htop : topLevelFields fs =
      ⟨("view", .ofFields (extraFields ["$schema", "datasets", "config"] fs)) ::
        (fs.filterKeys fun k => k == "datasets" || k == "config").entries⟩ := by
    unfold topLevelFields
    rw [h]
  have hother : ∀ k ∈ ["datasets", "config"], (topLevelFields fs).get? k = fs.get? k := by
    intro k hk
    have hne : ∀ k ∈ ["datasets", "config"], k ≠ "view" ∧
        (k == "datasets" || k == "config") = true := by
      decide
    have hfilter := OrderedMap.get?_filterKeys fs (fun k => k == "datasets" || k == "config") k
    rw [if_pos (hne k hk).2] at hfilter
    rw [htop, OrderedMap.get?, OrderedMap.find?, if_neg (hne k hk).1]
    exact hfilter
  refine readTopLevelFields_eq_readPlain ?_ (hother _ (by decide)) (hother _ (by decide)) ?_
  · rw [htop]
    exact congrArg (Check.underKey "view") (readView_filterKeys (by decide) fs)
  · rw [htop]
    intro k hk
    rcases List.mem_cons.1 hk with rfl | hk
    · exact List.mem_cons_self
    · obtain ⟨e, he, rfl⟩ := List.mem_map.1 hk
      have hkept := (List.mem_filter.1 he).2
      rcases Bool.or_eq_true_iff.1 hkept with hk | hk <;> rw [beq_iff_eq] at hk <;> rw [hk] <;>
        decide

end TopLevel

end ChartLowering.Schema
