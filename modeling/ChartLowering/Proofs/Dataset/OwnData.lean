import ChartLowering.Proofs.Dataset.Names
import ChartLowering.Proofs.Dataset.Separation
import ChartLowering.Proofs.Schema.Accepted

/-
  Which data a view reads.

  The outputs of views are kept by their names, so of several views with one name for their outputs
  the last one is read by all of them. `own_data` says that this is the only way in which a unit can
  miss its own data: a unit that is the last one under its name reads its own root dataset through
  exactly its own transforms, and any other one reads those of the last. Two views that are given
  one name by hand are enough for it (`own_data_fails`). What a root dataset holds is what the
  definition says, up to the order of keys (`Rooted.sorted_dataset`), as long as no fingerprints
  collide.
-/

namespace ChartLowering

/-! ## What a root holds -/

theorem Registry.sortedFields_fetchFields_eq (address : String) {fs gs : Fields}
    (h : (Json.ofFields fs).plain.sorted = (Json.ofFields gs).plain.sorted) :
    Json.sortedFields (fetchFields address (some fs)) =
      Json.sortedFields (fetchFields address (some gs)) := by
  unfold fetchFields
  rw [Option.filter_some, Option.filter_some, Json.isEmpty_eq_of_sorted_eq h]
  split
  · simp only [Option.map_some, Option.toList_some, Json.sortedFields, h]
  · rfl

namespace DataSpec

variable {d e : DataSpec}

/-- Definitions that are written alike, but for the order of keys, and are no references describe
the same root. -/
theorem sortedFields_rootFields_eq (hd : d.name? = none) (he : e.name? = none)
    (h : d.toJson.sorted = e.toJson.sorted) (declared : OrderedMap String Json) :
    Json.sortedFields (Registry.rootFields declared d) =
      Json.sortedFields (Registry.rootFields declared e) := by
  have hvalues := Json.map_sorted_field?_eq h "values"
  have hurl := Json.map_sorted_field?_eq h "url"
  have hformat := Json.map_sorted_field?_eq h "format"
  obtain ⟨origin, format⟩ := d
  obtain ⟨origin', format'⟩ := e
  cases origin with
  | name n => cases hd
  | values rows =>
    cases origin' with
    | name n => cases he
    | values rows' =>
      have hrows : (plainRows rows).sorted = (plainRows rows').sorted := Option.some.inj hvalues
      unfold Registry.rootFields
      simp only [Json.sortedFields, hrows]
    | url address => cases hvalues
  | url address =>
    cases origin' with
    | name n => cases he
    | values rows => cases hvalues
    | url address' =>
      obtain rfl : address = address' := Json.str.inj (Option.some.inj hurl)
      cases format with
      | none =>
        cases format' with
        | none => rfl
        | some fs' => cases hformat
      | some fs =>
        cases format' with
        | none => cases hformat
        | some fs' =>
          have hplain : (Json.ofFields fs).plain.sorted = (Json.ofFields fs').plain.sorted :=
            Option.some.inj hformat
          exact Registry.sortedFields_fetchFields_eq address hplain

/-- Whether two definitions stand for the same root dataset. -/
def SameRoot (d e : DataSpec) : Prop :=
  (∃ n, d.name? = some n ∧ e.name? = some n) ∨
    (d.name? = none ∧ e.name? = none ∧ d.toJson.sorted = e.toJson.sorted)

/-- Only definitions without a name share a root dataset with one that has none. -/
theorem SameRoot.of_unnamed (h : d.SameRoot e) (he : e.name? = none) :
    d.name? = none ∧ d.toJson.sorted = e.toJson.sorted := by
  rcases h with ⟨n, -, hn⟩ | ⟨hd, -, hsorted⟩
  · rw [he] at hn
    cases hn
  · exact ⟨hd, hsorted⟩

end DataSpec

namespace Registry

variable {r : Registry} {seen : List DataSpec} {d e : DataSpec} {s : Source}

theorem sourceKey_of_unnamed (hd : d.name? = none) : sourceKey d = .inline d.toJson.fingerprint := by
  unfold DataSpec.name? at hd
  unfold sourceKey
  cases horigin : d.origin with
  | name n => rw [horigin] at hd; cases hd
  | values rows | url address => rfl

/-- Definitions have one key exactly if they stand for the same root dataset. -/
theorem sourceKey_eq_iff {values : List Json} (hfree : Json.CollisionFree values)
    (hd : d.name? = none → d.toJson ∈ values) (he : e.name? = none → e.toJson ∈ values) :
    sourceKey d = sourceKey e ↔ d.SameRoot e := by
  unfold DataSpec.SameRoot
  cases hdname : d.name? with
  | some n =>
    rw [sourceKey_eq_named.2 hdname, eq_comm, sourceKey_eq_named]
    simp [eq_comm]
  | none =>
    cases hename : e.name? with
    | some m =>
      rw [sourceKey_eq_named.2 hename, sourceKey_eq_named, hdname]
      simp
    | none =>
      rw [sourceKey_of_unnamed hdname, sourceKey_of_unnamed hename, SourceKey.inline.injEq]
      constructor
      · exact fun h => Or.inr ⟨rfl, rfl, hfree _ (hd hdname) _ (he hename) h⟩
      · rintro (⟨n, hn, -⟩ | ⟨-, -, h⟩)
        · cases hn
        · exact Json.fingerprint_eq_of_sorted_eq h

theorem rootFields_of_named {n : String} (hd : d.name? = some n) (declared : OrderedMap String Json) :
    rootFields declared d = ((declared.get? n).map fun rows => ("values", rows)).toList := by
  unfold DataSpec.name? at hd
  unfold rootFields
  cases horigin : d.origin with
  | name m => rw [horigin] at hd; rw [Option.some.inj hd]
  | values rows | url address => rw [horigin] at hd; cases hd

/-- The root that a definition finds is the one that it describes, but for the order of keys. -/
theorem Rooted.sorted_dataset (h : r.Rooted seen)
    (hfree : Json.CollisionFree ((seen.filter fun d => d.name?.isNone).map DataSpec.toJson))
    (hd : d ∈ seen) (hs : r.sources.get? (sourceKey d) = some s) :
    s.dataset.sorted = (Json.obj (("name", .str s.name) :: rootFields r.declared d)).sorted := by
  obtain ⟨e, he, hkey, hdataset⟩ := h.described _ s hs
  suffices hfields : Json.sortedFields (rootFields r.declared e) =
      Json.sortedFields (rootFields r.declared d) by
    rw [hdataset, Json.sorted, Json.sorted, Json.sortedFields, Json.sortedFields, hfields]
  have hhashed : ∀ d ∈ seen, d.name? = none →
      d.toJson ∈ (seen.filter fun d => d.name?.isNone).map DataSpec.toJson := fun d hd hname =>
    List.mem_map_of_mem (List.mem_filter.2 ⟨hd, by rw [hname]; rfl⟩)
  rcases (sourceKey_eq_iff hfree (hhashed e he) (hhashed d hd)).1 hkey with
    ⟨n, hename, hname⟩ | ⟨hename, hname, hsorted⟩
  · rw [rootFields_of_named hname, rootFields_of_named hename]
  · exact DataSpec.sortedFields_rootFields_eq hename hname hsorted _

/-! ## The last output of a name -/

variable {r₀ : Registry} {views : List View} {n : String} {i : Nat} {v : View}

theorem IsLast.unique (h : IsLast views n i v) {j : Nat} {w : View} (hw : IsLast views n j w) :
    i = j ∧ v = w := by
  have hij : i = j :=
    Nat.le_antisymm (hw.last i v h.here h.registers h.name) (h.last j w hw.here hw.registers hw.name)
  subst hij
  exact ⟨rfl, Option.some.inj (h.here.symm.trans hw.here)⟩

/-- Every view with an output is the last one under its name if all names are distinct. -/
theorem isLast_of_nodup (hdistinct : (views.map View.mainOutput).Nodup) (hv : views[i]? = some v)
    (hregisters : v.hasOutput = true) : IsLast views v.mainOutput i v where
  here := hv
  registers := hregisters
  name := rfl
  last := by
    intro j w hw _ hname
    have hlength : j < (views.map View.mainOutput).length := by
      rw [List.length_map]
      exact (List.getElem?_eq_some_iff.1 hw).1
    have heq : (views.map View.mainOutput)[j]? = (views.map View.mainOutput)[i]? := by
      rw [List.getElem?_map, List.getElem?_map, hw, hv, Option.map_some, Option.map_some, hname]
    exact Nat.le_of_eq ((List.getElem?_inj hlength hdistinct).1 heq)

/-- The output of a name is that of the last view under it. -/
theorem Registered.get?_output (h : Registered r₀ r views) (hlast : IsLast views n i v) :
    ∃ d s, v.outputData? = some d ∧ r.sources.get? (sourceKey d) = some s ∧
      r.outputs.get? n = some ⟨some s, v.outputTransforms i⟩ := by
  have hkey : n ∈ r.outputs.keys :=
    h.mem_outputs_keys.2 ⟨v, List.mem_of_getElem? hlast.here, hlast.registers, hlast.name⟩
  obtain ⟨⟨n', p⟩, hp, rfl⟩ := List.mem_map.1 hkey
  have hget := OrderedMap.get?_of_mem h.nodup hp
  obtain ⟨j, w, d, s, hw, hd, hs, rfl⟩ := h.last n' p hget
  obtain ⟨rfl, rfl⟩ := hlast.unique hw
  exact ⟨d, s, hd, hs, hget⟩

/-- Every view with an output has a last one under its name, which is not before it. -/
theorem Registered.exists_isLast (h : Registered r₀ r views) (hv : views[i]? = some v)
    (hregisters : v.hasOutput = true) : ∃ j w, i ≤ j ∧ IsLast views v.mainOutput j w := by
  have hkey : v.mainOutput ∈ r.outputs.keys :=
    h.mem_outputs_keys.2 ⟨v, List.mem_of_getElem? hv, hregisters, rfl⟩
  obtain ⟨⟨n', p⟩, hp, hname⟩ := List.mem_map.1 hkey
  obtain ⟨j, w, -, -, hw, -⟩ := h.last n' p (OrderedMap.get?_of_mem h.nodup hp)
  rw [show n' = v.mainOutput from hname] at hw
  exact ⟨j, w, hw.last i v hv hregisters rfl, hw⟩

/-- Whether an output is read from the dataset that transforms make of the root of a definition. -/
def Reads (r : Registry) (output : String) (d : DataSpec) (transforms : List Transform) : Prop :=
  ∃ s, r.sources.get? (sourceKey d) = some s ∧
    s.dataset.sorted = (Json.obj (("name", .str s.name) :: rootFields r.declared d)).sorted ∧
    (r.concreteName output, ⟨some s, transforms⟩) ∈ r.datasets

/-- The last view under a name is the one whose data are read under it. -/
theorem Registered.reads (h : Registered r₀ r views)
    (hfree : Json.CollisionFree (r.hashed views)) (hlast : IsLast views n i v) {d : DataSpec}
    (hd : v.outputData? = some d) : r.link.Reads n d (v.outputTransforms i) := by
  obtain ⟨e, s, he, hs, houtput⟩ := h.get?_output hlast
  obtain rfl := Option.some.inj (hd.symm.trans he)
  obtain ⟨concrete, derived, hlink⟩ := link_frame _
  have hsources : r.link.sources = r.sources := by rw [hlink]
  have hdeclared : r.link.declared = r.declared := by rw [hlink]
  have hconcrete := h.get?_concrete_of_output hfree houtput
  have hname : r.link.concreteName n =
      if v.outputTransforms i = [] then s.name else n := by
    unfold concreteName
    rw [hconcrete]
    rfl
  refine ⟨s, by rw [hsources, hs], ?content, ?dataset⟩
  case content =>
    have hseen : d ∈ views.filterMap View.outputData? :=
      List.mem_filterMap.2 ⟨v, List.mem_of_getElem? hlast.here, hd⟩
    rw [hdeclared]
    exact h.rooted.sorted_dataset (hfree.mono (List.subset_append_left _ _)) hseen hs
  case dataset =>
    rw [hname, datasets, hsources, List.mem_append]
    split
    · rename_i hnil
      rw [hnil]
      exact Or.inl (List.mem_map.2
        ⟨s, List.mem_map_of_mem (OrderedMap.mem_entries_of_get? hs), rfl⟩)
    · rename_i hne
      rw [h.derived_entries hfree]
      refine Or.inr (List.mem_filter.2 ⟨OrderedMap.mem_entries_of_get? houtput, ?_⟩)
      simpa using hne

end Registry

namespace TopLevelSpec

open Registry

/-- Every unit with data reads the data of the last view with its output's name, through exactly
that view's transforms; so it reads its own data, through its own transforms, if it is the last one.
No two datasets have one name if no reference has a name that a compile makes up. -/
theorem own_data {settings : Settings} {t : TopLevelSpec} {r : Registry}
    (hr : t.registered settings = .ok r)
    (hfree : Json.CollisionFree (r.hashed (t.resolved settings).labels)) :
    (∀ i v u d, (t.resolved settings).labels[i]? = some v → v.form = .unit u → v.data = some d →
      (IsLast (t.resolved settings).labels v.mainOutput i v →
        r.link.Reads v.mainOutput d (v.transforms u i)) ∧
      ∃ j w e, i ≤ j ∧ IsLast (t.resolved settings).labels v.mainOutput j w ∧
        w.outputData? = some e ∧ r.link.Reads v.mainOutput e (w.outputTransforms j)) ∧
    (ReferencesApart (t.resolved settings).labels → (r.link.datasets.map Prod.fst).Nodup) := by
  have h := registered_eq_ok hr
  refine ⟨?_, h.nodup_datasets⟩
  intro i v u d hv hform hdata
  have houtput : v.outputData? = some d := (View.outputData?_unit hform).trans hdata
  constructor
  · intro hlast
    have hreads := h.reads hfree hlast houtput
    unfold View.outputTransforms at hreads
    rwa [hform] at hreads
  · obtain ⟨j, w, hij, hlast⟩ :=
      h.exists_isLast hv (View.hasOutput_iff_outputData?.2 ⟨d, houtput⟩)
    obtain ⟨e, he⟩ := View.hasOutput_iff_outputData?.1 hlast.registers
    exact ⟨j, w, e, hij, hlast, he, h.reads hfree hlast he⟩

/-- Places on a map, by two coordinates. -/
def places : UnitSpec :=
  ⟨⟨"point", .empty⟩, ⟨[(.longitude, .one ⟨.field "lon", none, none, .unset, .unset, .empty⟩),
    (.latitude, .one ⟨.field "lat", none, none, .unset, .unset, .empty⟩)]⟩, none⟩

/-- Places beside bars, of other data. -/
def placesBesideBars : TopLevelSpec :=
  let reading (dataset : String) : ViewBase := ⟨none, some ⟨.name dataset, none⟩, none, none⟩
  ⟨.concat ⟨none, none, none, none⟩ [.unit (reading "cities") places,
    .unit (reading "cars") ⟨⟨"bar", .empty⟩, .empty, none⟩] .horizontal .silent, .empty, .plain⟩

theorem exists_registered_placesBesideBars : ∃ r,
    placesBesideBars.registered .standard = .ok r ∧
      Json.CollisionFree (r.hashed (placesBesideBars.resolved .standard).labels) := by
  have hdistinct : (placesBesideBars.registered .standard).toOption.any (fun r =>
      decide ((r.hashed (placesBesideBars.resolved .standard).labels).map Json.fingerprint).Nodup) =
        true := by
    decide +kernel
  cases hr : placesBesideBars.registered .standard with
  | error cause => rw [hr] at hdistinct; cases hdistinct
  | ok r =>
    rw [hr] at hdistinct
    exact ⟨r, rfl, Json.collisionFree_of_nodup (of_decide_eq_true hdistinct)⟩

/-- The places are read from the cities, through the transforms of the first of the two views. -/
theorem own_data_placesBesideBars : ∃ r d, placesBesideBars.registered .standard = .ok r ∧
    Json.CollisionFree (r.hashed (placesBesideBars.resolved .standard).labels) ∧
    d.name? = some "cities" ∧ r.link.Reads "concat_0_main" d
      [.geojson (some [.field "lon", .field "lat"]) none "concat_0_geojson_0",
        .geopoint "concat_0_projection" [.field "lon", .field "lat"] ["concat_0_x", "concat_0_y"]
          (some 1)] := by
  have hunit : (placesBesideBars.resolved .standard).labels[1]?.any (fun v =>
      decide (v.form = .unit places ∧ v.data = some ⟨.name "cities", none⟩ ∧
        v.mainOutput = "concat_0_main" ∧ v.transforms places 1 =
          [.geojson (some [.field "lon", .field "lat"]) none "concat_0_geojson_0",
            .geopoint "concat_0_projection" [.field "lon", .field "lat"]
              ["concat_0_x", "concat_0_y"] (some 1)])) = true := by
    decide +kernel
  have hnames : ((placesBesideBars.resolved .standard).labels.map View.mainOutput).Nodup := by
    decide +kernel
  obtain ⟨v, hv, hunit⟩ := (Option.any_eq_true _ _).1 hunit
  obtain ⟨hform, hdata, hmain, htransforms⟩ := of_decide_eq_true hunit
  obtain ⟨r, hr, hfree⟩ := exists_registered_placesBesideBars
  have hregisters : v.hasOutput = true :=
    View.hasOutput_iff_outputData?.2 ⟨_, (View.outputData?_unit hform).trans hdata⟩
  have hreads := ((own_data hr hfree).1 1 v places _ hv hform hdata).1
    (isLast_of_nodup hnames hv hregisters)
  rw [hmain, htransforms] at hreads
  exact ⟨r, _, hr, hfree, rfl, hreads⟩

/-- Two views of one name, of different data. -/
def twins : TopLevelSpec :=
  let twin (dataset : String) : ViewSpec :=
    .unit ⟨some "v", some ⟨.name dataset, none⟩, none, none⟩ ⟨⟨"point", .empty⟩, .empty, none⟩
  ⟨.concat ⟨none, none, none, none⟩ [twin "cars", twin "planes"] .horizontal .silent, .empty,
    .plain⟩

def twinJson (dataset : String) : Json :=
  .obj [("name", .str "v"), ("mark", .str "point"), ("data", .obj [("name", .str dataset)])]

theorem accepted_twins : twins.Accepted :=
  ⟨.obj [("hconcat", .arr [twinJson "cars", twinJson "planes"])], by decide +kernel, rfl⟩

/-- The first of the two does not read its own data: its output is read from the planes. -/
theorem own_data_fails : twins.Accepted ∧ ∃ r v u, twins.registered .standard = .ok r ∧
    (twins.resolved .standard).labels[1]? = some v ∧ v.form = .unit u ∧
      v.data = some ⟨.name "cars", none⟩ ∧ r.link.concreteName v.mainOutput = "planes" ∧
        ¬ r.link.Reads v.mainOutput ⟨.name "cars", none⟩ (v.transforms u 1) := by
  have hunit : (twins.resolved .standard).labels[1]?.any (fun v =>
      decide (v.form = .unit ⟨⟨"point", .empty⟩, .empty, none⟩ ∧
        v.data = some ⟨.name "cars", none⟩ ∧ v.mainOutput = "v_main")) = true := by
    decide +kernel
  have hlinked : (twins.registered .standard).toOption.any (fun r =>
      decide (r.link.concreteName "v_main" = "planes") &&
        (r.link.sources.get? (.named "cars")).all fun s =>
          r.link.datasets.all fun e => e.1 != "planes" || decide (e.2.source ≠ some s)) = true := by
    decide +kernel
  obtain ⟨v, hv, hunit⟩ := (Option.any_eq_true _ _).1 hunit
  obtain ⟨hform, hdata, hmain⟩ := of_decide_eq_true hunit
  refine ⟨accepted_twins, ?_⟩
  cases hr : twins.registered .standard with
  | error cause => rw [hr] at hlinked; cases hlinked
  | ok r =>
    rw [hr] at hlinked
    obtain ⟨hname, hapart⟩ := Bool.and_eq_true_iff.1 hlinked
    have hname := of_decide_eq_true hname
    refine ⟨r, v, _, rfl, hv, hform, hdata, by rw [hmain, hname], ?_⟩
    rintro ⟨s, hs, -, hdataset⟩
    have hcars : r.link.sources.get? (.named "cars") = some s := hs
    rw [hcars, Option.all_some, List.all_eq_true] at hapart
    have hother := hapart _ hdataset
    rw [hmain, hname] at hother
    simp at hother

end TopLevelSpec

end ChartLowering
