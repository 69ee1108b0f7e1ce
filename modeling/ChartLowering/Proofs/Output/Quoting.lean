import ChartLowering.Proofs.Output.Geometry
import ChartLowering.Proofs.Text.StringLiteral

/-
  Names that are quoted in expressions.

  A compile writes three kinds of expressions that quote a name: the test of a shape field, the
  shape field of a drawn shape, and the rows of a dataset that a projection is fit to. A name is put
  between quotes as it is. So it is denoted exactly if it is plain (`quoted_names`); a quote, a
  backslash or a line end in a name makes another literal of it, or none.
-/

namespace ChartLowering

open Text Literal

/-! ## Expressions as literals between brackets -/

theorem validityTest_eq (field : String) :
    Transform.validityTest field = "isValid(datum[" ++ enclosed '"' field ++ "])" :=
  append_enclosed (by decide) (by decide) field

theorem rowField_eq (field : String) :
    View.rowField field = "datum[" ++ enclosed '"' field ++ "]" :=
  append_enclosed (by decide) (by decide) field

theorem rowsExpression_eq (dataset : String) :
    Registry.rowsExpression dataset = "data(" ++ enclosed '\'' dataset ++ ")" :=
  append_enclosed (by decide) (by decide) dataset

/-- A geometry field is extracted only if it is the unit's shape field. -/
theorem View.shapeField?_of_mem_transforms {v : View} {u : UnitSpec} {index : Nat}
    {coordinates : Option (List Coordinate)} {f signal : String}
    (h : .geojson coordinates (some f) signal ∈ v.transforms u index) : u.shapeField? = some f := by
  obtain ⟨k, -, ⟨role, i, hrole, he⟩ | ⟨e, -, he⟩⟩ := mem_transforms h
  · have hrole : role ∈ u.geometryRoles := (List.mem_zipIdx' hrole).2 ▸ List.getElem_mem _
    cases role with
    | coordinates pair => cases he
    | shape field =>
      cases he
      rcases List.mem_append.1 hrole with hrole | hrole
      · obtain ⟨e, -, he⟩ := List.mem_map.1 hrole
        cases he
      · obtain ⟨g, hg, he⟩ := Option.map_eq_some_iff.1 (Option.mem_toList.1 hrole)
        cases he
        exact hg
  · cases he

namespace TopLevelSpec

open Registry

/-- In what a compile writes, every test of rows and every drawn shape has the shape field of its
unit between double quotes, and every source of a fit is an extracted signal or has the dataset of an
output between single quotes. Such a literal denotes the name between its quotes exactly if the name
is plain. -/
theorem quoted_names {settings : Settings} {t : TopLevelSpec} {d : Document}
    (hd : t.compile settings = .ok d) :
    (∀ name source transforms, .derived name source transforms ∈ d.data → ∀ j ∈ transforms,
      j.field? "type" = some (.str "filter") → ∃ i v u f,
        IsLast (t.resolved settings).labels name i v ∧ v.form = .unit u ∧ u.shapeField? = some f ∧
          j.field? "expr" = some (.str ("isValid(datum[" ++ enclosed '"' f ++ "])"))) ∧
    (∀ m ∈ Mark.itemsAll d.marks, ∀ st, m.shape? = some st →
      ∃ l ∈ (t.resolved settings).walk [], ∃ u data, l.tree.label.form = .unit u ∧
        m = l.tree.label.unitMark l.above u data ∧
          st.field = u.shapeField?.map fun f => "datum[" ++ enclosed '"' f ++ "]") ∧
    (∃ r, t.registered settings = .ok r ∧
      ∀ l ∈ (t.resolved settings).walk [], ∀ e ∈ l.tree.label.liveComponents .projection,
        ∀ sources, e.2.data = some sources → ∀ x ∈ r.link.fitExpressions sources,
          r.link.produces x = true ∨ ∃ n c, .output n ∈ sources ∧
            r.link.concrete.get? n = some c ∧ x = "data(" ++ enclosed '\'' c ++ ")") ∧
    ∀ quote name, Denotes quote (enclosed quote name) name ↔ IsPlain quote name := by
  obtain ⟨r, q, h⟩ := exists_dataGroup hd
  refine ⟨?_, ?_, ⟨r, h.registered, ?_⟩, denotes_enclosed_iff⟩
  · intro name source transforms hderived j hj htype
    obtain ⟨p, s, hp, -, -, rfl⟩ := h.mem_derived.1 hderived
    obtain ⟨-, i, v, u, data, s', hlast, hform, -, -, rfl⟩ := h.outputs.exists_unit_of_derived hp
    obtain ⟨transform, hmem, hj⟩ := List.mem_flatMap.1 hj
    rcases Transform.mem_emit hj with ⟨coordinates, f, signal, rfl, -, hexpr⟩ |
      ⟨coordinates, geometry, signal, -, hgeojson⟩ |
      ⟨projection, coordinates, positions, view, -, hgeopoint, -⟩
    · refine ⟨i, v, u, f, hlast, hform, View.shapeField?_of_mem_transforms hmem, ?_⟩
      rw [hexpr, validityTest_eq]
    · exact absurd (hgeojson.symm.trans htype) (by decide)
    · exact absurd (hgeopoint.symm.trans htype) (by decide)
  · intro m hm st hst
    rw [h.marks] at hm
    obtain ⟨l, hl, u, data, hform, rfl⟩ := ViewTree.mem_items_marks hm
    refine ⟨l, hl, u, data, hform, rfl, ?_⟩
    rw [(View.shape_of_unitMark hst).2, ← funext rowField_eq]
  · intro l hl e he sources hsources x hx
    obtain ⟨source, hsource, hx⟩ := mem_fitExpressions.1 hx
    cases source with
    | signal n notes =>
      unfold fitExpression? at hx
      simp only at hx
      split at hx
      · rename_i hproduced
        exact .inl (Option.some.inj hx ▸ hproduced)
      · cases hx
    | output n =>
      obtain ⟨c, hc, rfl⟩ := Option.map_eq_some_iff.1 hx
      exact .inr ⟨n, c, hsource, hc, rowsExpression_eq c⟩
    | unusable j => cases hx

/-- A map of the shapes in a field, over the rows of a dataset. -/
def shapesOverRows (field dataset : String) : TopLevelSpec :=
  let reading (name : String) : ViewBase := ⟨none, some ⟨.name name, none⟩, none, none⟩
  let shape : ChannelDef := ⟨.field field, some .geojson, none, .unset, .unset, .empty⟩
  ⟨.layer ⟨none, none, none, none⟩ [.unit (reading dataset) rowsMap,
    .unit (reading "regions") ⟨⟨"geoshape", .empty⟩, ⟨[(.shape, .one shape)]⟩, none⟩] .silent,
    .empty, .plain⟩

/-- The regions with the test of a shape field. -/
def testedRegions (field test : String) : DatasetDef :=
  .derived "layer_1_main" "regions" [.obj [("type", .str "filter"), ("expr", .str test)],
    .obj [("type", .str "geojson"), ("geojson", .str field), ("signal", .str "layer_1_geojson_0")]]

/-- Plain names are denoted. -/
theorem quoted_names_geo : ∃ d, (shapesOverRows "geo" "cities").compile .standard = .ok d ∧
    testedRegions "geo" "isValid(datum[\"geo\"])" ∈ d.data ∧
      (d.shapes.map ShapeTransform.field) = [none, some "datum[\"geo\"]"] ∧
        Denotes '"' "\"geo\"" "geo" ∧
          d.projections.map (·.get? "fit") =
            [some (.signalRef "[data('cities'), layer_1_geojson_0]")] ∧
          Denotes '\'' "'cities'" "cities" := by
  have hok : ((shapesOverRows "geo" "cities").compile .standard).toOption.any (fun d =>
      decide (testedRegions "geo" "isValid(datum[\"geo\"])" ∈ d.data ∧
        (d.shapes.map ShapeTransform.field) = [none, some "datum[\"geo\"]"] ∧
          d.projections.map (·.get? "fit") =
            [some (.signalRef "[data('cities'), layer_1_geojson_0]")])) = true := by
    decide +kernel
  cases hd : (shapesOverRows "geo" "cities").compile .standard with
  | error cause => rw [hd] at hok; cases hok
  | ok d =>
    rw [hd] at hok
    obtain ⟨htest, hshapes, hfit⟩ := of_decide_eq_true hok
    obtain ⟨-, -, -, hdenotes⟩ := quoted_names hd
    have hfield : IsPlain '"' "geo" := by decide +kernel
    have hdataset : IsPlain '\'' "cities" := by decide +kernel
    exact ⟨d, rfl, htest, hshapes, (hdenotes '"' "geo").2 hfield, hfit,
      (hdenotes '\'' "cities").2 hdataset⟩

def shapesOverRowsJson : Json :=
  let reading (name : String) : String × Json := ("data", .obj [("name", .str name)])
  .obj [("layer", .arr [.obj [("mark", .str "geoshape"), reading "it's"],
    .obj [("mark", .str "geoshape"), reading "regions",
      ("encoding", .obj [("shape", .obj [("field", .str "a\"b"), ("type", .str "geojson")])])]])]

/-- A quote of the kind that encloses a name ends the literal in its midst. -/
theorem quotes_end_literals : (shapesOverRows "a\"b" "it's").Accepted ∧
    ∃ d, (shapesOverRows "a\"b" "it's").compile .standard = .ok d ∧
      testedRegions "a\"b" "isValid(datum[\"a\"b\"])" ∈ d.data ∧
        (d.shapes.map ShapeTransform.field) = [none, some "datum[\"a\"b\"]"] ∧
          ¬ Denotes '"' "\"a\"b\"" "a\"b" ∧
            d.projections.map (·.get? "fit") =
              [some (.signalRef "[data('it's'), layer_1_geojson_0]")] ∧
            ¬ Denotes '\'' "'it's'" "it's" := by
  have hok : ((shapesOverRows "a\"b" "it's").compile .standard).toOption.any (fun d =>
      decide (testedRegions "a\"b" "isValid(datum[\"a\"b\"])" ∈ d.data ∧
        (d.shapes.map ShapeTransform.field) = [none, some "datum[\"a\"b\"]"] ∧
          d.projections.map (·.get? "fit") =
            [some (.signalRef "[data('it's'), layer_1_geojson_0]")])) = true := by
    decide +kernel
  refine ⟨⟨shapesOverRowsJson, by decide +kernel, rfl⟩, ?_⟩
  cases hd : (shapesOverRows "a\"b" "it's").compile .standard with
  | error cause => rw [hd] at hok; cases hok
  | ok d =>
    rw [hd] at hok
    obtain ⟨htest, hshapes, hfit⟩ := of_decide_eq_true hok
    have hfield : ¬ IsPlain '"' "a\"b" := by decide +kernel
    have hdataset : ¬ IsPlain '\'' "it's" := by decide +kernel
    exact ⟨d, rfl, htest, hshapes, mt (denotes_enclosed_iff '"' "a\"b").1 hfield, hfit,
      mt (denotes_enclosed_iff '\'' "it's").1 hdataset⟩

end TopLevelSpec

end ChartLowering
