import ChartLowering.Proofs.Output.WrittenData

/-
  Geometry that is used and geometry that is made.

  A fit refers to geometry by the name of a signal, and the mark of a symbol to its position by the
  names of fields. Both are named apart from the transforms that make them, so a document has to
  agree with itself (`geometry_agrees`). If no two views have their outputs under one name and no
  fingerprints collide, every unit with transforms has a written dataset with exactly these. So the
  signals that are registered are those that some written dataset extracts
  (`produces_iff_extracts`), and a symbol reads the dataset in which its coordinates are projected to
  the fields that it refers to.
-/

namespace ChartLowering

open ViewTree

/-! ## Transforms as they are written -/

namespace Transform

/-- Only an extraction into a signal is written as one. -/
theorem mem_emit_geojson {t : Transform} {assigned : Nat → String → String} {signal : String} :
    (∃ j ∈ t.emit assigned,
      j.field? "type" = some (.str "geojson") ∧ j.field? "signal" = some (.str signal)) ↔
      ∃ coordinates geometry, t = .geojson coordinates geometry signal := by
  cases t with
  | geojson coordinates geometry n =>
    cases coordinates <;> cases hfield : geometryField geometry <;>
      simp [emit, hfield, Json.field?, Json.fields?, OrderedMap.get?, OrderedMap.find?]
  | geopoint projection coordinates positions view =>
    simp [emit, Json.field?, Json.fields?, OrderedMap.get?, OrderedMap.find?]

theorem exists_emit_geopoint (assigned : Nat → String → String) (projection : String)
    (coordinates : List Coordinate) (positions : List String) (view : Option Nat) :
    ∃ j ∈ (geopoint projection coordinates positions view).emit assigned,
      j.field? "type" = some (.str "geopoint") ∧
        j.field? "fields" = some (coordinatesJson coordinates) ∧
        j.field? "as" = some (.strings positions) := by
  refine ⟨_, List.mem_cons_self, ?_⟩
  simp [Json.field?, Json.fields?, OrderedMap.get?, OrderedMap.find?]

end Transform

namespace View

variable {v : View} {u : UnitSpec}

/-- Every pair of coordinates of a unit with a projection is projected. -/
theorem geopoint_mem_transforms {k : Component} (hk : v.component? .projection none = some k)
    {e : String × CoordinatePair} (he : e ∈ u.coordinatePairs) (index : Nat) :
    .geopoint k.name e.2.toList [v.partName ("x" ++ e.1), v.partName ("y" ++ e.1)] (some index) ∈
      v.transforms u index := by
  unfold transforms
  rw [hk]
  exact List.mem_append_right _ (List.mem_map.2 ⟨e, he, rfl⟩)

/-! ## Positions of symbols -/

/-- A projected position, as a symbol refers to it. -/
def positionEntry (v : View) (position : String) : Entry := ⟨.field (v.partName position), none⟩

/-- Projected positions are set whatever the channels set. -/
theorem get?_projectedPositions (update : OrderedMap String Entry) {position : String}
    (h : ∃ e ∈ u.coordinatePairs, position = "x" ++ e.1 ∨ position = "y" ++ e.1) :
    (v.projectedPositions u update).get? position = some (v.positionEntry position) := by
  unfold projectedPositions
  generalize u.coordinatePairs = pairs at h
  suffices hrun : ∀ update : OrderedMap String Entry,
      (∃ e ∈ pairs, position = "x" ++ e.1 ∨ position = "y" ++ e.1) ∨
        update.get? position = some (v.positionEntry position) →
      (pairs.foldl (fun acc e =>
        (acc.insert ("x" ++ e.1) (v.positionEntry ("x" ++ e.1))).insert ("y" ++ e.1)
          (v.positionEntry ("y" ++ e.1))) update).get? position =
        some (v.positionEntry position) from hrun update (Or.inl h)
  clear h
  induction pairs with
  | nil =>
    rintro update (⟨e, he, -⟩ | hset)
    · exact absurd he List.not_mem_nil
    · exact hset
  | cons e rest ih =>
    intro update h
    refine ih _ ?_
    by_cases hself : position = "x" ++ e.1 ∨ position = "y" ++ e.1
    · right
      rw [OrderedMap.get?_insert, OrderedMap.get?_insert]
      by_cases hy : position = "y" ++ e.1
      · rw [if_pos hy, hy]
      · have hx := hself.resolve_right hy
        rw [if_neg hy, if_pos hx, hx]
    · rw [not_or] at hself
      rw [OrderedMap.get?_insert, OrderedMap.get?_insert, if_neg hself.2, if_neg hself.1]
      refine h.imp ?_ id
      rintro ⟨e', he', hposition⟩
      rcases List.mem_cons.1 he' with rfl | he'
      · exact absurd hposition (not_or.2 hself)
      · exact ⟨e', he', hposition⟩

/-- The projected positions of a symbol are set in the end. -/
theorem get?_symbolUpdate {above : List View} {k : Component}
    (hk : v.component? .projection none = some k) {e : String × CoordinatePair}
    (he : e ∈ u.coordinatePairs) {axis : String} (haxis : axis ∈ ["x", "y"]) :
    (v.symbolUpdate above u).get? (axis ++ e.1) = some (v.positionEntry (axis ++ e.1)) := by
  have hprojected : (v.projectionName? above).isSome = true := by
    rw [projectionName?, hk]
    rfl
  have hposition : axis ++ e.1 = "x" ++ e.1 ∨ axis ++ e.1 = "y" ++ e.1 := by
    rcases List.mem_cons.1 haxis with rfl | haxis
    · exact Or.inl rfl
    · exact Or.inr (by rw [List.mem_singleton.1 haxis])
  have hset := get?_projectedPositions (v := v) (v.update above u []) ⟨e, he, hposition⟩
  have hapart : ∀ axis ∈ ["x", "y"], ∀ suffix ∈ ["", "2"], axis ++ suffix ≠ "shape" := by
    decide +kernel
  unfold symbolUpdate
  simp only [hprojected, if_true]
  split
  · rw [OrderedMap.get?_insert_of_ne _ _
      (hapart axis haxis e.1 (u.suffix_mem_of_mem_coordinatePairs he)), hset]
  · exact hset

theorem unitMark_of_isSymbol (hsymbol : isSymbol u.mark.type = true) (above : List View)
    (data : Option String) : v.unitMark above u data =
      .item (v.partName "marks") "symbol" data (v.symbolUpdate above u) none := by
  have htype : u.mark.type ∈ ["point", "circle", "square"] := List.contains_iff_mem.1 hsymbol
  have hruntime : ∀ mark ∈ ["point", "circle", "square"],
      (mark == "geoshape") = false ∧ runtimeMark mark = "symbol" := by
    decide +kernel
  obtain ⟨hshape, hname⟩ := hruntime _ htype
  unfold unitMark
  simp only [hshape, hname, hsymbol, if_true, Bool.false_eq_true, if_false]

end View

/-! ## Written datasets -/

namespace Registry

variable {r : Registry}

/-- An output that is read through transforms is read from a derived dataset. -/
theorem Reads.exists_derived {n : String} {d : DataSpec} {transforms : List Transform}
    (h : r.Reads n d transforms) (hne : transforms ≠ []) :
    ∃ s, (r.concreteName n, ⟨some s, transforms⟩) ∈ r.derived.entries := by
  obtain ⟨s, -, -, hdataset⟩ := h
  rcases List.mem_append.1 hdataset with hroot | hderived
  · obtain ⟨s', -, hs'⟩ := List.mem_map.1 hroot
    exact absurd (Pipeline.mk.inj (Prod.mk.inj hs').2).2.symm hne
  · exact ⟨s, hderived⟩

end Registry

/-- Whether a document extracts geometry into a signal. -/
def Document.Extracts (d : Document) (signal : String) : Prop :=
  ∃ name source transforms, .derived name source transforms ∈ d.data ∧ ∃ j ∈ transforms,
    j.field? "type" = some (.str "geojson") ∧ j.field? "signal" = some (.str signal)

/-- Whether a dataset of a document projects coordinates to a position in some field. -/
def Document.Projects (d : Document) (dataset : String) (coordinates : List Coordinate)
    (field : String) : Prop :=
  ∃ source transforms, .derived dataset source transforms ∈ d.data ∧ ∃ j ∈ transforms,
    j.field? "type" = some (.str "geopoint") ∧
      j.field? "fields" = some (Transform.coordinatesJson coordinates) ∧
      ∃ positions, j.field? "as" = some (.strings positions) ∧ field ∈ positions

namespace DataGroup

variable {settings : Settings} {t : TopLevelSpec} {d : Document} {r q : Registry}

/-- What a transform of a unit is written as is in the dataset that the unit's mark reads. -/
theorem exists_derived_of_transform (h : DataGroup settings t d r q)
    (hdistinct : ((t.resolved settings).labels.map View.mainOutput).Nodup)
    (hfree : Json.CollisionFree (r.hashed (t.resolved settings).labels)) {v : View} {i : Nat}
    (hv : (t.resolved settings).labels[i]? = some v) {u : UnitSpec} (hform : v.form = .unit u)
    {data : DataSpec} (hdata : v.data = some data) {transform : Transform}
    (hmem : transform ∈ v.transforms u i) :
    ∃ source transforms,
      .derived (r.link.concreteName v.mainOutput) source transforms ∈ d.data ∧
        transform.emit (t.resolved settings).projectionSeenFrom ⊆ transforms := by
  have houtput : v.outputData? = some data := (View.outputData?_unit hform).trans hdata
  have hlast := Registry.isLast_of_nodup hdistinct hv (View.hasOutput_iff_outputData?.2 ⟨_, houtput⟩)
  have hreads := h.outputs.reads hfree hlast houtput
  unfold View.outputTransforms at hreads
  rw [hform] at hreads
  obtain ⟨s, hderived⟩ := hreads.exists_derived (List.ne_nil_of_mem hmem)
  refine ⟨s.name, _, h.mem_derived.2 ⟨_, s, hderived, rfl, rfl, rfl⟩, fun j hj => ?_⟩
  exact List.mem_flatMap.2 ⟨transform, hmem, hj⟩

/-- The signals that are registered are those that are extracted in written datasets. -/
theorem produces_iff_extracts (h : DataGroup settings t d r q)
    (hdistinct : ((t.resolved settings).labels.map View.mainOutput).Nodup)
    (hfree : Json.CollisionFree (r.hashed (t.resolved settings).labels)) {signal : String} :
    r.link.produces signal = true ↔ d.Extracts signal := by
  rw [h.outputs.backsViews.produces]
  constructor
  · rintro ⟨v, hv, hextracted⟩
    obtain ⟨i, hi⟩ := List.getElem?_of_mem hv
    obtain ⟨u, data, hform, hdata⟩ := View.exists_unit_of_mem_extracted hextracted
    rw [← Pipeline.signals_transforms hform hdata none i, Pipeline.mem_signals] at hextracted
    obtain ⟨coordinates, geometry, hmem⟩ := hextracted
    obtain ⟨source, transforms, hderived, hsub⟩ :=
      h.exists_derived_of_transform hdistinct hfree hi hform hdata hmem
    obtain ⟨j, hj, hfields⟩ := Transform.mem_emit_geojson.2 ⟨coordinates, geometry, rfl⟩
    exact ⟨_, source, transforms, hderived, j, hsub hj, hfields⟩
  · rintro ⟨name, source, transforms, hderived, j, hj, hfields⟩
    obtain ⟨p, s, hp, -, -, rfl⟩ := h.mem_derived.1 hderived
    obtain ⟨-, i, v, u, data, s', hlast, hform, hdata, -, rfl⟩ :=
      h.outputs.exists_unit_of_derived hp
    obtain ⟨transform, hmem, hj⟩ := List.mem_flatMap.1 hj
    obtain ⟨coordinates, geometry, rfl⟩ := Transform.mem_emit_geojson.1 ⟨j, hj, hfields⟩
    refine ⟨v, List.mem_of_getElem? hlast.here, ?_⟩
    rw [← Pipeline.signals_transforms hform hdata (some s') i, Pipeline.mem_signals]
    exact ⟨coordinates, geometry, hmem⟩

end DataGroup

namespace ViewTree

variable {config : Config} {settings : Settings} {t : ViewTree} {r : Registry}

/-- A signal is in a fit that gathered it if and only if it is produced. -/
theorem IsResolved.signal_mem_fitExpressions (h : IsResolved config settings t) {l : Located View}
    (hl : l ∈ t.walk []) {k : Component} {sources : List FitSource}
    (hk : l.tree.label.component? .projection none = some k) (hsources : k.data = some sources)
    {signal : String} {notes : OrderedMap String Json} (hsignal : .signal signal notes ∈ sources) :
    signal ∈ r.fitExpressions sources ↔ r.produces signal = true := by
  rw [Registry.mem_fitExpressions]
  constructor
  · rintro ⟨source, hmem, hsource⟩
    cases source with
    | signal n notes' =>
      unfold Registry.fitExpression? at hsource
      simp only at hsource
      split at hsource
      · rename_i hproduced
        rwa [Option.some.inj hsource] at hproduced
      · cases hsource
    | output n =>
      -- the signal has a generated name, and rows are referred to by an expression with a bracket
      obtain ⟨m, -, hrows⟩ := Option.map_eq_some_iff.1 hsource
      obtain ⟨hgathered, -⟩ := h.gatheredFrom l hl k sources hk hsources
      rw [hgathered] at hsignal
      obtain ⟨c, -, hsignal⟩ := List.mem_flatMap.1 hsignal
      unfold View.fitSources at hsignal
      split at hsignal
      · cases List.mem_singleton.1 hsignal
      · obtain ⟨e, -, he⟩ := List.mem_map.1 hsignal
        cases he
        exact absurd hrows (Registry.rowsExpression_ne_partName m c.1 _)
    | unusable j => cases hsource
  · intro hproduced
    refine ⟨_, hsignal, ?_⟩
    unfold Registry.fitExpression?
    simp only [hproduced, if_true]

end ViewTree

namespace TopLevelSpec

open Registry

/-- If no two views have their outputs under one name and no fingerprints collide, the signals in
the fit of a projection are those of its sources that are extracted in written datasets. Every symbol
with data and a projection reads the dataset in which the positions that it refers to are projected
from its coordinates. -/
theorem geometry_agrees {settings : Settings} {t : TopLevelSpec} {d : Document} {r : Registry}
    (hd : t.compile settings = .ok d) (hr : t.registered settings = .ok r)
    (hdistinct : ((t.resolved settings).labels.map View.mainOutput).Nodup)
    (hfree : Json.CollisionFree (r.hashed (t.resolved settings).labels)) :
    (∀ l ∈ (t.resolved settings).walk [], ∀ k sources,
      l.tree.label.component? .projection none = some k → k.data = some sources →
        ∀ signal notes, .signal signal notes ∈ sources →
          (signal ∈ r.link.fitExpressions sources ↔ d.Extracts signal)) ∧
    (∀ l ∈ (t.resolved settings).walk [], ∀ u k, l.tree.label.form = .unit u →
      View.isSymbol u.mark.type = true → l.tree.label.data ≠ none →
      l.tree.label.component? .projection none = some k →
        ∃ dataset update,
          .item (l.tree.label.partName "marks") "symbol" (some dataset) update none ∈
            Mark.nestedAll d.marks ∧
          ∀ e ∈ u.coordinatePairs, ∀ axis ∈ ["x", "y"],
            update.get? (axis ++ e.1) =
              some ⟨.field (l.tree.label.partName (axis ++ e.1)), none⟩ ∧
            d.Projects dataset e.2.toList (l.tree.label.partName (axis ++ e.1))) := by
  obtain ⟨r', q, h⟩ := exists_dataGroup hd
  obtain rfl : r' = r := Except.ok.inj (h.registered.symm.trans hr)
  have hresolved := isResolved_resolved settings t
  constructor
  · intro l hl k sources hk hsources signal notes hsignal
    rw [hresolved.signal_mem_fitExpressions hl hk hsources hsignal,
      h.produces_iff_extracts hdistinct hfree]
  · intro l hl u k hform hsymbol hdata hk
    obtain ⟨data, hdata⟩ := Option.ne_none_iff_exists'.1 hdata
    have hlabel : l.tree.label ∈ (t.resolved settings).labels := List.mem_map_of_mem hl
    obtain ⟨i, hi⟩ := List.getElem?_of_mem hlabel
    have hmark := unitMark_mem_marks (r := r'.link) hresolved.leaf hl hform
    rw [hdata, Option.map_some, View.unitMark_of_isSymbol hsymbol, ← h.marks] at hmark
    refine ⟨_, _, hmark, fun e he axis haxis => ⟨View.get?_symbolUpdate hk he haxis, ?_⟩⟩
    obtain ⟨source, transforms, hderived, hsub⟩ := h.exists_derived_of_transform hdistinct hfree hi
      hform hdata (View.geopoint_mem_transforms hk he i)
    obtain ⟨j, hj, htype, hfields, has⟩ := Transform.exists_emit_geopoint
      (t.resolved settings).projectionSeenFrom k.name e.2.toList
      [l.tree.label.partName ("x" ++ e.1), l.tree.label.partName ("y" ++ e.1)] (some i)
    refine ⟨source, transforms, hderived, j, hsub hj, htype, hfields, _, has, ?_⟩
    rcases List.mem_cons.1 haxis with rfl | haxis
    · exact List.mem_cons_self
    · rw [List.mem_singleton.1 haxis]
      exact List.mem_cons_of_mem _ List.mem_cons_self

/-- The places are in the fit by their signal, and are placed by two projected positions. -/
theorem geometry_agrees_placesBesideBars : ∃ d r l k dataset update,
    placesBesideBars.compile .standard = .ok d ∧ placesBesideBars.registered .standard = .ok r ∧
      ((placesBesideBars.resolved .standard).labels.map View.mainOutput).Nodup ∧
      Json.CollisionFree (r.hashed (placesBesideBars.resolved .standard).labels) ∧
      (placesBesideBars.resolved .standard).locate? [0] = some l ∧
      l.tree.label.component? .projection none = some k ∧
      k.data = some [.signal "concat_0_geojson_0" .empty] ∧
      r.link.fitExpressions [.signal "concat_0_geojson_0" .empty] = ["concat_0_geojson_0"] ∧
      d.Extracts "concat_0_geojson_0" ∧
      .item "concat_0_marks" "symbol" (some dataset) update none ∈ Mark.nestedAll d.marks ∧
      ∀ axis ∈ ["x", "y"], update.get? axis = some ⟨.field ("concat_0_" ++ axis), none⟩ ∧
        d.Projects dataset [.field "lon", .field "lat"] ("concat_0_" ++ axis) := by
  have hcompiled : (placesBesideBars.compile .standard).toOption.isSome = true := by
    decide +kernel
  have hexpressions : (placesBesideBars.registered .standard).toOption.any (fun r =>
      decide (r.link.fitExpressions [.signal "concat_0_geojson_0" .empty] =
        ["concat_0_geojson_0"])) = true := by
    decide +kernel
  have hnames : ((placesBesideBars.resolved .standard).labels.map View.mainOutput).Nodup := by
    decide +kernel
  have hplaces : ((placesBesideBars.resolved .standard).locate? [0]).any (fun l =>
      decide (l.tree.label.form = .unit places ∧ l.tree.label.data ≠ none ∧
        l.tree.label.partName "marks" = "concat_0_marks" ∧
        ∀ axis ∈ ["x", "y"], l.tree.label.partName (axis ++ "") = "concat_0_" ++ axis) &&
      (l.tree.label.component? .projection none).any fun k =>
        decide (k.data = some [.signal "concat_0_geojson_0" .empty])) = true := by
    decide +kernel
  have hpair : (("", ⟨.field "lon", .field "lat"⟩) : String × CoordinatePair) ∈
      places.coordinatePairs := by
    decide +kernel
  obtain ⟨l, hl, hplaces⟩ := (Option.any_eq_true _ _).1 hplaces
  obtain ⟨hunit, hprojection⟩ := Bool.and_eq_true_iff.1 hplaces
  obtain ⟨hform, hdata, hmarks, haxes⟩ := of_decide_eq_true hunit
  obtain ⟨k, hk, hsources⟩ := (Option.any_eq_true _ _).1 hprojection
  have hsources := of_decide_eq_true hsources
  have hwalk := Tree.mem_walk_of_locate? hl
  obtain ⟨r, hr, hfree⟩ := exists_registered_placesBesideBars
  rw [hr] at hexpressions
  have hexpressions := of_decide_eq_true hexpressions
  cases hd : placesBesideBars.compile .standard with
  | error cause => rw [hd] at hcompiled; cases hcompiled
  | ok d =>
    obtain ⟨hfits, hsymbols⟩ := geometry_agrees hd hr hnames hfree
    have hextracts := (hfits l hwalk k _ hk hsources "concat_0_geojson_0" .empty
      (List.mem_singleton.2 rfl)).1 (by rw [hexpressions]; exact List.mem_singleton.2 rfl)
    obtain ⟨dataset, update, hmark, hpairs⟩ :=
      hsymbols l hwalk places k hform (by decide +kernel) hdata hk
    rw [hmarks] at hmark
    refine ⟨d, r, l, k, dataset, update, rfl, hr, hnames, hfree, hl, hk, hsources, hexpressions,
      hextracts, hmark, fun axis haxis => ?_⟩
    have hplaced := hpairs _ hpair axis haxis
    rw [haxes axis haxis, String.append_empty] at hplaced
    exact hplaced

end TopLevelSpec

end ChartLowering
