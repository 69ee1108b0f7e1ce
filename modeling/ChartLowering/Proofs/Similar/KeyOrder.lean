import ChartLowering.Output.Render
import ChartLowering.Proofs.Dataset.OwnData
import ChartLowering.Proofs.Similar.Views

/-
  Charts and the order of keys.

  The order of keys does not matter. Two specifications that differ in nothing but the order of the
  keys of objects are compiled to documents that differ in nothing but that, or fail with the same
  error (`compile_of_arranged_eq`). Only the keys of encodings, whose order is that of the channels,
  and those inside constants of channels, which are written out as texts, are not to be reordered.
  Definitions of data are found by fingerprints, which do not see the order, so nothing is assumed of
  fingerprints.
-/

namespace ChartLowering

/-! ## Objects with alike fields -/

/-- Two fields of one key whose values differ in the order of keys. -/
def SameField (e e' : String × Json) : Prop :=
  e.1 = e'.1 ∧ e.2.arranged .free = e'.2.arranged .free

theorem arrangedFields_congr {l l' : List (String × Json)} (h : List.Forall₂ SameField l l') :
    Json.arrangedFields .free l = Json.arrangedFields .free l' := by
  induction h with
  | nil => rfl
  | @cons e e' rest rest' he _ ih =>
    rw [Json.arrangedFields, Json.arrangedFields, ih, he.1]
    exact congrArg (fun v => Place.free.enter (e'.1, v) _) he.2

theorem SameField.self (k : String) (v : Json) : SameField (k, v) (k, v) := ⟨rfl, rfl⟩

theorem SameField.list (k : String) {items items' : List Json}
    (h : items.map (Json.arranged .free) = items'.map (Json.arranged .free)) :
    SameField (k, .arr items) (k, .arr items') := by
  refine ⟨rfl, ?_⟩
  rw [Json.arranged, Json.arranged, Json.arrangedItems_eq_map, Json.arrangedItems_eq_map, h]

/-! ## Data -/

namespace DataSpec

variable {d e : DataSpec} {p : Place}

theorem name?_arranged (d : DataSpec) : (d.arranged p).name? = d.name? := by
  obtain ⟨origin, format⟩ := d
  cases origin <;> rfl

theorem isTooDeep_arranged (d : DataSpec) : (d.arranged p).isTooDeep = d.isTooDeep := by
  have hdepth : ∀ fs : Fields, Json.depthFields (fs.arranged p).entries = Json.depthFields fs.entries :=
    fun fs => Json.depthFields_arranged p fs.entries
  have hformat : Json.depthFields ((d.arranged p).format.getD .empty).entries =
      Json.depthFields (d.format.getD .empty).entries := by
    show Json.depthFields ((d.format.map (Fields.arranged p)).getD .empty).entries = _
    cases d.format with
    | none => rfl
    | some fs => exact hdepth fs
  unfold isTooDeep depth
  simp only [hformat]
  unfold arranged DataOrigin.arranged
  cases d.origin with
  | values rows => simp only [List.map_map, Function.comp_def, hdepth]
  | url address | name n => rfl

theorem plainRows_alike {rows rows' : List Fields}
    (h : rows.map (Fields.arranged .free) = rows'.map (Fields.arranged .free)) :
    (plainRows rows).arranged .free = (plainRows rows').arranged .free := by
  have hrows : ∀ rows : List Fields, (rowsJson rows).arranged .free =
      rowsJson (rows.map (Fields.arranged .free)) := by
    intro rows
    unfold rowsJson
    rw [Json.arranged, Json.arrangedItems_eq_map, List.map_map, List.map_map]
    rfl
  unfold plainRows
  rw [← Json.plain_arranged, ← Json.plain_arranged, hrows, h, hrows]

theorem plain_alike {fs gs : Fields} (h : fs.arranged .free = gs.arranged .free) :
    (Json.ofFields fs).plain.arranged .free = (Json.ofFields gs).plain.arranged .free := by
  rw [← Json.plain_arranged, ← Json.plain_arranged, Fields.arranged_iff_ofFields.1 h]

/-- The parts of definitions that differ in the order of keys. -/
theorem cases_of_arranged_eq (h : d.arranged .free = e.arranged .free) :
    ((∃ rows rows', d.origin = .values rows ∧ e.origin = .values rows' ∧
        rows.map (Fields.arranged .free) = rows'.map (Fields.arranged .free)) ∨
      d.origin = e.origin) ∧
    d.format.map (Fields.arranged .free) = e.format.map (Fields.arranged .free) := by
  obtain ⟨horigin, hformat⟩ := DataSpec.mk.inj h
  refine ⟨?_, hformat⟩
  generalize d.origin = o, e.origin = o' at horigin ⊢
  cases o <;> cases o' <;> simp only [DataOrigin.arranged, reduceCtorEq] at horigin
  case values.values rows rows' =>
    exact .inl ⟨rows, rows', rfl, rfl, DataOrigin.values.inj horigin⟩
  case url.url => exact .inr horigin
  case name.name => exact .inr horigin

/-- Definitions that differ in the order of keys are written as values that do. -/
theorem toJson_alike (h : d.arranged .free = e.arranged .free) :
    d.toJson.arranged .free = e.toJson.arranged .free := by
  obtain ⟨horigin, hformat⟩ := cases_of_arranged_eq h
  have hfields : ∀ {values values' format format' : Json}, values.arranged .free =
      values'.arranged .free → format.arranged .free = format'.arranged .free → ∀ url name : Json,
      (Json.obj [("values", values), ("url", url), ("format", format), ("name", name)]).arranged .free =
        (Json.obj [("values", values'), ("url", url), ("format", format'), ("name", name)]).arranged
          .free := fun hvalues hformat url name =>
    congrArg Json.obj (arrangedFields_congr (.cons ⟨rfl, hvalues⟩ (.cons (.self _ _)
      (.cons ⟨rfl, hformat⟩ (.cons (.self _ _) .nil)))))
  unfold toJson
  rcases horigin with ⟨rows, rows', hd, he, hrows⟩ | hd <;>
    rcases cases_of_map_eq_map hformat with ⟨hf, hg⟩ | ⟨fs, gs, hf, hg, hfs⟩
  · rw [hd, he, hf, hg]
    exact hfields (plainRows_alike hrows) rfl _ _
  · rw [hd, he, hf, hg]
    exact hfields (plainRows_alike hrows) (plain_alike hfs) _ _
  · rw [hd, hf, hg]
  · rw [hd, hf, hg]
    exact hfields rfl (plain_alike hfs) _ _

end DataSpec

namespace Registry

variable {d e : DataSpec}

/-- Definitions that differ in the order of keys are found by one key. -/
theorem sourceKey_eq (h : d.arranged .free = e.arranged .free) : sourceKey d = sourceKey e := by
  have hname : d.name? = e.name? := by
    rw [← d.name?_arranged, h, DataSpec.name?_arranged]
  cases hd : d.name? with
  | some n => rw [sourceKey_eq_named.2 hd, sourceKey_eq_named.2 (hname.symm.trans hd)]
  | none =>
    rw [sourceKey_of_unnamed hd, sourceKey_of_unnamed (hname.symm.trans hd),
      Json.fingerprint_eq_of_arranged_eq (DataSpec.toJson_alike h)]

/-- Definitions that differ in the order of keys describe root datasets that do. -/
theorem rootFields_alike (h : d.arranged .free = e.arranged .free) (hname : d.name? = none)
    (declared declared' : OrderedMap String Json) :
    List.Forall₂ SameField (rootFields declared d) (rootFields declared' e) := by
  obtain ⟨horigin, hformat⟩ := DataSpec.cases_of_arranged_eq h
  unfold DataSpec.name? at hname
  unfold rootFields
  rcases horigin with ⟨rows, rows', hd, he, hrows⟩ | hd
  · rw [hd, he]
    exact .cons ⟨rfl, DataSpec.plainRows_alike hrows⟩ .nil
  · rw [← hd]
    cases horigin : d.origin with
    | name n => rw [horigin] at hname; cases hname
    | values rows => exact .cons (.self _ _) .nil
    | url address =>
      refine .cons (.self _ _) ?_
      rcases cases_of_map_eq_map hformat with ⟨hd, he⟩ | ⟨fs, gs, hd, he, hfs⟩
      · rw [hd, he]
        exact .nil
      · have hempty : fs.isEmpty = gs.isEmpty := by
          rw [← Fields.isEmpty_arranged .free, hfs, Fields.isEmpty_arranged]
        rw [hd, he, Option.filter_some, Option.filter_some, hempty]
        split
        · exact .cons ⟨rfl, DataSpec.plain_alike hfs⟩ .nil
        · exact .nil

end Registry

/-- Two values that differ in the order of keys. -/
abbrev Json.SameButOrder (a b : Json) : Prop := a.arranged .free = b.arranged .free

namespace TopLevelSpec

variable {t t' : TopLevelSpec}

theorem SameButOrder.rootLaw : RootLaw (fun d e => d.arranged .free = e.arranged .free)
    (fun _ => True) (fun _ => True) Eq Json.SameButOrder where
  name?_eq d e h := by rw [← d.name?_arranged, h, DataSpec.name?_arranged]
  isTooDeep_eq d e h := by rw [← d.isTooDeep_arranged, h, DataSpec.isTooDeep_arranged]
  key _ _ h _ := Registry.sourceKey_eq h
  key_eq_iff _ _ _ _ hk hl := by rw [hk, hl]
  root _ _ h hname declared declared' _ := congrArg Json.obj
    (arrangedFields_congr (.cons (.self _ _) (Registry.rootFields_alike h hname declared declared')))

/-- The same datasets are declared, with rows that differ in the order of keys. -/
theorem SameButOrder.namedSource (h : t.SameButOrder t') (settings : Settings) (n : String) :
    SameOutcome (Source.Alike Json.SameButOrder) ((t.requested settings).namedSource n)
      ((t'.requested settings).namedSource n) := by
  refine namedSource_alike (h.datasets n) (fun _ => rfl) fun rows rows' hrows => ?_
  refine congrArg Json.obj (arrangedFields_congr (.cons (.self _ _) (.cons (.list _ ?_) .nil)))
  rw [List.map_map, List.map_map]
  exact map_eq_map_of_forall₂
    (hrows.imp fun _ _ hrow => Fields.arranged_iff_ofFields.1 hrow)

end TopLevelSpec

/-! ## Documents -/

/-- Documents that are alike but for the order of keys are written as values that are. -/
theorem Document.toJson_sameButOrder {d d' : Document} (h : d.Alike .free Json.SameButOrder d') :
    d.toJson.SameButOrder d'.toJson := by
  obtain ⟨hschema, hsignals, hdata, hentries, hmarks⟩ := h
  have hitems : ∀ f, ((d.entries f).map Json.ofFields).map (Json.arranged .free) =
      ((d'.entries f).map Json.ofFields).map (Json.arranged .free) := by
    intro f
    rw [List.map_map, List.map_map]
    exact map_eq_map_of_forall₂
      ((hentries f).imp fun _ _ he => Fields.arranged_iff_ofFields.1 he)
  have hgroup : ∀ k f, List.Forall₂ SameField (unlessEmpty k ((d.entries f).map .ofFields))
      (unlessEmpty k ((d'.entries f).map .ofFields)) := by
    intro k f
    have hempty : ((d.entries f).map Json.ofFields).isEmpty =
        ((d'.entries f).map Json.ofFields).isEmpty := by
      rw [← List.isEmpty_map, hitems, List.isEmpty_map]
    unfold unlessEmpty
    rw [hempty]
    split
    · exact .nil
    · exact .cons (.list k (hitems f)) .nil
  have hdatasets : (d.data.map DatasetDef.toJson).map (Json.arranged .free) =
      (d'.data.map DatasetDef.toJson).map (Json.arranged .free) := by
    rw [List.map_map, List.map_map]
    refine map_eq_map_of_forall₂ (hdata.imp fun a b hab => ?_)
    cases hab with
    | root hroot => exact hroot
    | derived name source transforms => rfl
  refine congrArg Json.obj (arrangedFields_congr ?_)
  rw [hschema, hsignals, hmarks]
  have hsame : ∀ l : List (String × Json), List.Forall₂ SameField l l := fun l =>
    List.forall₂_same.2 fun e _ => .self e.1 e.2
  refine List.rel_append ?_ (hsame _)
  refine List.rel_append ?_ (hgroup "legends" .legend)
  refine List.rel_append ?_ (hgroup "axes" .axis)
  refine List.rel_append ?_ (hgroup "scales" .scale)
  exact List.rel_append (hsame _)
    (.cons (.list _ hdatasets) (.cons (.list _ (hitems .projection)) .nil))

/-- Specifications that differ in the order of keys are compiled to documents that do, or fail with
the same error. -/
theorem compile_of_arranged_eq {j j' : Json} (h : j.arranged .view = j'.arranged .view)
    {t t' : TopLevelSpec} (ht : Schema.readTopLevel j = .valid t)
    (ht' : Schema.readTopLevel j' = .valid t') (settings : Settings) :
    (t.compile settings).map (fun d => d.toJson.arranged .free) =
      (t'.compile settings).map fun d => d.toJson.arranged .free := by
  have hspec := Schema.readTopLevel_alike j j' t t' h ht ht'
  have halike := TopLevelSpec.compile_alike Place.isUniform_free TopLevelSpec.SameButOrder.rootLaw
    hspec.alike (hspec.namedSource settings) (fun _ _ => trivial) fun _ _ => trivial
  have hdocuments : SameOutcome Eq
      ((t.compile settings).map fun d => d.toJson.arranged .free)
      ((t'.compile settings).map fun d => d.toJson.arranged .free) :=
    halike.map fun _ _ => Document.toJson_sameButOrder
  exact hdocuments.eq

/-- Bars over rows of their own, with an axis and a configured scale. -/
def bars : Json :=
  .obj [("mark", .str "bar"),
    ("data", .obj [("values", .arr [.obj [("a", .int 1), ("b", .int 2)]])]),
    ("encoding", .obj
      [("x", .obj [("field", .str "a"), ("type", .str "ordinal"),
        ("axis", .obj [("title", .str "A"), ("grid", .bool true)])]),
       ("y", .obj [("field", .str "b"), ("type", .str "quantitative")])]),
    ("config", .obj [("scale", .obj [("round", .bool true), ("nice", .bool false)])])]

/-- The same bars with the keys of all objects but the encoding the other way round. -/
def barsReordered : Json :=
  .obj [("config", .obj [("scale", .obj [("nice", .bool false), ("round", .bool true)])]),
    ("encoding", .obj
      [("x", .obj [("axis", .obj [("grid", .bool true), ("title", .str "A")]),
        ("type", .str "ordinal"), ("field", .str "a")]),
       ("y", .obj [("type", .str "quantitative"), ("field", .str "b")])]),
    ("data", .obj [("values", .arr [.obj [("b", .int 2), ("a", .int 1)]])]),
    ("mark", .str "bar")]

/-- Two orders of keys make two documents with one content. -/
theorem compile_of_arranged_eq_bars : bars.arranged .view = barsReordered.arranged .view ∧
    ∃ t t', Schema.readTopLevel bars = .valid t ∧ Schema.readTopLevel barsReordered = .valid t' ∧
      (t.compile .standard).map (fun d => d.toJson.arranged .free) =
        (t'.compile .standard).map (fun d => d.toJson.arranged .free) ∧
      (t.compile .standard).isOk = true ∧
      (t.compile .standard).map Document.toJson ≠ (t'.compile .standard).map Document.toJson := by
  have harranged : bars.arranged .view = barsReordered.arranged .view := by decide +kernel
  exact ⟨harranged, _, _, rfl, rfl, compile_of_arranged_eq harranged rfl rfl .standard,
    by decide +kernel, by decide +kernel⟩

end ChartLowering
