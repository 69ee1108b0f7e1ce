import ChartLowering.Proofs.Dataset.Pipelines
import ChartLowering.Proofs.Names.Lookup
import ChartLowering.Proofs.Output.Configured
import ChartLowering.Proofs.Output.Marks

/-
  References to scales and projections.

  Marks, guides and transforms refer to scales and projections by names as seen from a view, which
  are those of live components; entries are written for all live components. A projection is always
  written under its component's name, so these references resolve. A scale that sets the property
  `name` itself is written under that one, and what refers to the component's name is then left
  dangling (`scale_references`).
-/

namespace ChartLowering

/-- The names under which the entries of a family are written. -/
def Document.names (d : Document) (f : Family) : List Json :=
  (d.entries f).filterMap fun e => e.get? "name"

theorem Document.mem_names {d : Document} {f : Family} {x : Json} :
    x ∈ d.names f ↔ ∃ e ∈ d.entries f, e.get? "name" = some x :=
  List.mem_filterMap

/-- A list or an object, which cannot be a name. -/
def Json.isContainer : Json → Bool
  | .arr _ | .obj _ | .table _ => true
  | _ => false

/-- The name that a scale is written under: the one it sets itself, or the component's. -/
def Component.writtenName (k : Component) : Json := (k.explicit.get? "name").getD (.str k.name)

theorem Component.get?_name_combine {k : Component} (h : k.WellFormed) :
    k.combine.get? "name" = some k.writtenName := by
  have hget : k.combine.get? "name" = k.layers.get? "name" :=
    Layered.get?_combine k.layers h.explicit "name"
  rw [hget]
  unfold Layered.get? layers writtenName
  rw [OrderedMap.get?_insert_self]
  cases k.explicit.get? "name" <;> rfl

theorem View.get?_name_projectionFields {r : Registry} {v : View} {above : List View}
    {k : Component} {e : Fields} (h : projectionFields r v above k = .ok e) :
    e.get? "name" = some (.str k.name) := by
  obtain ⟨first, rest, rfl⟩ := projectionFields_eq h
  have hname : "name" ∉ k.properties.keys := by
    rw [← OrderedMap.get?_eq_none_iff]
    unfold Component.properties
    rw [OrderedMap.get?_filterKeys, if_neg (by decide)]
  rw [OrderedMap.get?_overlay_of_notMem _ _ hname]
  rfl

namespace ViewTree

open View

variable {config : Config} {settings : Settings} {t : ViewTree} {r : Registry} {d : Document}

/-! ## Projections -/

/-- What a view's projection is called from the view is the name of a written projection. -/
theorem Compiled.projection_mem_names (hd : t.Compiled r d) (h : IsResolved config settings t)
    {l : Located View} (hl : l ∈ t.walk []) {k : Component}
    (hk : l.tree.label.component? .projection none = some k) :
    .str (seenFrom l .projection k.name) ∈ d.names .projection := by
  obtain ⟨a, ha⟩ := Tree.mem_walk_iff_locate?.1 hl
  obtain ⟨b, s, j, -, hf, hj, hlive, hname⟩ :=
    h.lookup_component (s := ⟨.projection, none⟩) rfl ha hk
  obtain ⟨p, hp, hj⟩ := componentAt?_eq_some.1 hj
  obtain ⟨e, he, hmem⟩ := hd.exists_entry h (Tree.mem_walk_of_locate? hp) hj hlive
  obtain ⟨f, c⟩ := s
  obtain rfl : f = .projection := hf
  rw [Document.mem_names]
  refine ⟨e, hmem, ?_⟩
  rw [← hname]
  exact get?_name_projectionFields he

/-- A unit that draws on a map has a projection. -/
theorem Settled.exists_projection_of_needed {l : Located View} (h : Settled config settings l)
    {u : UnitSpec} (hform : l.tree.label.form = .unit u) (hneeded : u.needsProjection = true) :
    ∃ k, l.tree.label.component? .projection none = some k := by
  have hget := h.get?_unit hform (s := ⟨.projection, none⟩) (by decide)
  have hsome : (l.tree.label.components.get? ⟨.projection, none⟩).isSome = true := by
    rw [← isSome_get?_asMade, hget]
    exact unitComponent?_projection_of_needed _ hneeded
  exact Option.isSome_iff_exists.1 hsome

/-- A unit of geographic shapes has a projection. -/
theorem Settled.exists_projection {l : Located View} (h : Settled config settings l) {u : UnitSpec}
    (hform : l.tree.label.form = .unit u) (hmark : u.mark.type = "geoshape") :
    ∃ k, l.tree.label.component? .projection none = some k := by
  refine h.exists_projection_of_needed hform ?_
  unfold UnitSpec.needsProjection
  rw [hmark]
  rfl

/-- Every drawn shape is projected by a written projection. -/
theorem Compiled.shape_mem_names (hd : t.Compiled r d) (h : IsResolved config settings t)
    {shape : ShapeTransform} (hshape : shape ∈ d.shapes) :
    ∃ n, shape.projection = some n ∧ .str n ∈ d.names .projection := by
  obtain ⟨l, hl, u, hform, hmark, rfl⟩ := mem_shapes hd.marks hshape
  obtain ⟨k, hk⟩ := (h.settled l hl).exists_projection hform hmark
  refine ⟨seenFrom l .projection k.name, ?_, hd.projection_mem_names h hl hk⟩
  unfold projectionName?
  rw [hk]
  rfl

/-- Every coordinate transform of a written dataset goes through a written projection. -/
theorem Compiled.geopoint_mem_names (hd : t.Compiled r d) (h : IsResolved config settings t)
    (hr : r.ProjectsBy fun i n => ∃ l, (t.walk [])[i]? = some l ∧
      ∃ k, l.tree.label.component? .projection none = some k ∧ k.name = n)
    {name source : String} {transforms : List Json}
    (hdata : .derived name source transforms ∈ d.data) {j : Json} (hj : j ∈ transforms)
    (htype : j.field? "type" = some (.str "geopoint")) :
    ∃ n, j.field? "projection" = some (.str n) ∧ .str n ∈ d.names .projection := by
  obtain ⟨consulted, hemit⟩ := hd.data
  rw [hemit] at hdata
  obtain ⟨p, hp, projection, coordinates, positions, view, htransform, hprojection⟩ :=
    Registry.exists_geopoint_of_emit hdata hj htype
  obtain ⟨i, rfl, l, hl, k, hk, rfl⟩ := hr.derived p hp _ _ _ _ htransform
  refine ⟨seenFrom l .projection k.name, ?_, hd.projection_mem_names h (List.mem_of_getElem? hl) hk⟩
  rw [hprojection]
  simp only [projectionSeenFrom, hl]
  rfl

/-! ## Scales -/

/-- Where a guide's entry refers to its scale. -/
def Slot.referenceKey (s : Slot) : String :=
  match s.family with
  | .legend => (s.channel.map Channel.legendTarget).getD ""
  | _ => "scale"

/-- What completes a guide's entry besides the reference to its scale. -/
def guideRest (f : Family) (k : Component) : List (String × Json) :=
  match f with
  | .axis => [("orient", (k.get? "orient").getD .null)]
  | _ => []

theorem entry_guide {s : Slot} (hguide : s.family.isGuide = true) (r : Registry) (v : View)
    (above : List View) (k : Component) : v.entry r above s k = (v.guideScale above k).map fun x =>
      (OrderedMap.mk ((Slot.referenceKey s, x) :: guideRest s.family k)).overlay k.explicit := by
  obtain ⟨f, c⟩ := s
  cases f with
  | axis => rfl
  | legend => rfl
  | scale => cases hguide
  | projection => cases hguide

/-- A reference to a scale that is written: by a mark property, or by a guide that does not set the
reference itself. -/
inductive ScaleReference (t : ViewTree) (r : Registry) (d : Document) : Json → Prop where
  | mark {n : String} (hn : n ∈ d.markScales) : ScaleReference t r d (.str n)
  | guide {l : Located View} {s : Slot} {k : Component} {e : Fields} {x : Json}
      (hl : l ∈ t.walk []) (hguide : s.family.isGuide = true)
      (hk : l.tree.label.components.get? s = some k) (hlive : k.merged = false)
      (he : l.tree.label.entry r l.above s k = .ok e) (hmem : e ∈ d.entries s.family)
      (hscale : k.explicit.get? "scale" = none)
      (hkey : k.explicit.get? (Slot.referenceKey s) = none)
      (hx : e.get? (Slot.referenceKey s) = some x) : ScaleReference t r d x

/-- The scale that a guide refers to, unless it sets one, is the one beside it, as seen from its
view. -/
theorem Settled.guideScale_eq {l : Located View} (h : Settled config settings l) {s : Slot}
    (hguide : s.family.isGuide = true) {k : Component}
    (hk : l.tree.label.components.get? s = some k) (hscale : k.explicit.get? "scale" = none) :
    ∃ scale, l.tree.label.components.get? ⟨.scale, s.channel⟩ = some scale ∧
      l.tree.label.guideScale l.above k = .ok (.str (seenFrom l .scale scale.name)) := by
  obtain ⟨scale, hget, himplicit⟩ := h.guide_scale hguide hk
  refine ⟨scale, hget, ?_⟩
  have hproperty : k.get? "scale" = some (.str scale.name) := by
    unfold Component.get? Layered.get? Component.layers
    rw [hscale, OrderedMap.get?_insert_of_ne _ _ (by decide), himplicit]
    rfl
  unfold guideScale
  rw [hproperty]
  rfl

/-- A guide that does not set a list or an object as its scale is written out, whatever the datasets
are. -/
theorem Settled.exists_entry_of_guide {l : Located View} (h : Settled config settings l) {s : Slot}
    (hguide : s.family.isGuide = true) {k : Component}
    (hk : l.tree.label.components.get? s = some k)
    (hname : ∀ x, k.explicit.get? "scale" = some x → x.isContainer = false) :
    ∃ e, ∀ r, l.tree.label.entry r l.above s k = .ok e := by
  have hreference : ∃ x, l.tree.label.guideScale l.above k = .ok x := by
    cases hscale : k.explicit.get? "scale" with
    | none =>
      obtain ⟨scale, -, hreference⟩ := h.guideScale_eq hguide hk hscale
      exact ⟨_, hreference⟩
    | some x =>
      have hproperty : k.get? "scale" = some x := by
        unfold Component.get? Layered.get? Component.layers
        rw [hscale]
        rfl
      have hx := hname x hscale
      unfold guideScale
      rw [hproperty]
      cases x with
      | arr items => cases hx
      | obj fields => cases hx
      | table rows => cases hx
      | null | bool | num | str => exact ⟨_, rfl⟩
  obtain ⟨x, hx⟩ := hreference
  exact ⟨_, fun r => (entry_guide hguide r _ _ k).trans (map_eq_ok.2 ⟨x, hx, rfl⟩)⟩

/-- A guide that does not set its reference refers to the scale beside it, as seen from its view. -/
theorem Settled.reference_of_guide {l : Located View} (h : Settled config settings l) {s : Slot}
    (hguide : s.family.isGuide = true) {k : Component} {e : Fields}
    (hk : l.tree.label.components.get? s = some k)
    (he : l.tree.label.entry r l.above s k = .ok e) (hscale : k.explicit.get? "scale" = none)
    (hkey : k.explicit.get? (Slot.referenceKey s) = none) :
    ∃ scale, l.tree.label.components.get? ⟨.scale, s.channel⟩ = some scale ∧
      e.get? (Slot.referenceKey s) = some (.str (seenFrom l .scale scale.name)) := by
  obtain ⟨scale, hget, hreference⟩ := h.guideScale_eq hguide hk hscale
  refine ⟨scale, hget, ?_⟩
  rw [OrderedMap.get?_eq_none_iff] at hkey
  rw [entry_guide hguide] at he
  obtain ⟨x, hx, rfl⟩ := map_eq_ok.1 he
  obtain rfl := Except.ok.inj (hreference.symm.trans hx)
  rw [OrderedMap.get?_overlay_of_notMem _ _ hkey]
  exact OrderedMap.get?_cons_self ..

/-- A written reference is the name of a live scale. -/
theorem ScaleReference.isLiveName (h : IsResolved config settings t) (hd : t.Compiled r d)
    {x : Json} (hx : t.ScaleReference r d x) : ∃ a n, x = .str n ∧ t.IsLiveName .scale a n := by
  cases hx with
  | mark hn =>
    obtain ⟨l, hl, c, hc⟩ := mem_markScales hd.marks hn
    obtain ⟨a, ha⟩ := Tree.mem_walk_iff_locate?.1 hl
    obtain ⟨k, hk, rfl⟩ := Option.map_eq_some_iff.1 hc
    exact ⟨a, _, rfl, h.lookup_component (s := ⟨.scale, some c⟩) rfl ha hk⟩
  | guide hl hguide hk hlive he hmem hscale hkey hx =>
    rename_i l s k e
    obtain ⟨a, ha⟩ := Tree.mem_walk_iff_locate?.1 hl
    obtain ⟨scale, hget, hreference⟩ :=
      (h.settled l hl).reference_of_guide hguide hk he hscale hkey
    obtain rfl := Option.some.inj (hx.symm.trans hreference)
    exact ⟨a, _, rfl, h.lookup_component (s := ⟨.scale, s.channel⟩) rfl ha hget⟩

/-- The scales of a document are written under the names of the live scales that set none, and
under those that the others set. -/
theorem Compiled.mem_names_scale (hd : t.Compiled r d) (h : IsResolved config settings t)
    (hconfig : ∀ f, (config.defaults f).keys.Nodup) {x : Json} :
    x ∈ d.names .scale ↔ ∃ a c k, t.componentAt? ⟨.scale, c⟩ a = some k ∧ k.merged = false ∧
      k.writtenName = x := by
  rw [Document.mem_names]
  constructor
  · rintro ⟨e, he, hx⟩
    obtain ⟨l, hl, c, k, hk, hlive, hentry⟩ := (hd.mem_entries h).1 he
    obtain rfl := Except.ok.inj hentry
    obtain ⟨a, ha⟩ := Tree.mem_walk_iff_locate?.1 hl
    rw [Component.get?_name_combine (h.wellFormed hconfig l hl _ k hk)] at hx
    exact ⟨a, c, k, componentAt?_eq_some.2 ⟨l, ha, hk⟩, hlive, Option.some.inj hx⟩
  · rintro ⟨a, c, k, hk, hlive, rfl⟩
    obtain ⟨l, ha, hk⟩ := componentAt?_eq_some.1 hk
    have hl := Tree.mem_walk_of_locate? ha
    exact ⟨k.combine, (hd.mem_entries h).2 ⟨l, hl, c, k, hk, hlive, rfl⟩,
      Component.get?_name_combine (h.wellFormed hconfig l hl _ k hk)⟩

end ViewTree

namespace TopLevelSpec

open ViewTree

/-- Names never dangle after merges. A component's name is looked up to that of a live component at
the view or above it; where no view has a name of its own, to that of the one in which the component
ended, and to no other. So the projections of drawn shapes and of coordinate transforms are all
written. -/
theorem names_resolve (settings : Settings) (t : TopLevelSpec) :
    (∀ a l s k kind, (t.resolved settings).locate? a = some l →
      l.tree.label.components.get? s = some k → s.family.nameKind? = some kind →
        (t.resolved settings).IsLiveName s.family a (l.tree.label.lookup l.above kind k.name)) ∧
    (t.view.Unnamed → ∀ a l s k kind, (t.resolved settings).locate? a = some l →
      l.tree.label.components.get? s = some k → s.family.nameKind? = some kind →
        ∃ b j, (t.resolved settings).endOf? s a = some b ∧
          (t.resolved settings).componentAt? s b = some j ∧ j.merged = false ∧
          l.tree.label.lookup l.above kind k.name = j.name ∧
          ∀ b' s' j', b' <:+ a → s'.family = s.family →
            (t.resolved settings).componentAt? s' b' = some j' → j'.name = j.name →
              b' = b ∧ s' = s) ∧
    (∀ d, t.compile settings = .ok d →
      (∀ shape ∈ d.shapes, ∃ n, shape.projection = some n ∧ .str n ∈ d.names .projection) ∧
      ∀ name source transforms, .derived name source transforms ∈ d.data → ∀ j ∈ transforms,
        j.field? "type" = some (.str "geopoint") →
          ∃ n, j.field? "projection" = some (.str n) ∧ .str n ∈ d.names .projection) := by
  have h := isResolved_resolved settings t
  refine ⟨?live, ?exact, ?written⟩
  case live =>
    intro a l s k kind hl hk hkind
    exact h.lookup_component hkind hl hk
  case exact =>
    intro hunnamed a l s k kind hl hk hkind
    have hplaced := placed_resolved settings hunnamed
    obtain ⟨b, j, hb, hj, hlive, hname⟩ := h.lookup_end hplaced hkind a l k hl hk
    refine ⟨b, j, hb, hj, hlive, hname, ?_⟩
    intro b' s' j' hb' hf hj' hname'
    have hsome : s.family.nameKind?.isSome = true := by rw [hkind]; rfl
    exact h.eq_of_name_eq_of_suffix hplaced hsome hf (endOf?_suffix hb) hb' hj hj' hname'
  case written =>
    intro d hd
    obtain ⟨r, hr, hcompiled⟩ := compiled_of_compile hd
    refine ⟨fun shape hshape => hcompiled.shape_mem_names h hshape, ?_⟩
    intro name source transforms hdata j hj htype
    exact hcompiled.geopoint_mem_names h (projectsBy_registered hr) hdata hj htype

/-- A map of shapes in a projection that is placed by hand. -/
def mapUnit : UnitSpec :=
  ⟨⟨"geoshape", .empty⟩, .empty, some ⟨[("scale", .int 100)]⟩⟩

/-- Two maps over each other, in one projection. -/
def mapLayers : TopLevelSpec :=
  let bare : ViewBase := ⟨none, none, none, none⟩
  ⟨.layer bare [.unit bare mapUnit, .unit bare mapUnit] .silent, .empty, .plain⟩

/-- The second map's projection is called as the one around both, in which it ended, and both maps
draw their shapes through a written projection. -/
theorem names_resolve_mapLayers : mapLayers.view.Unnamed ∧
    (∃ l k b j, (mapLayers.resolved .standard).locate? [1] = some l ∧
      l.tree.label.components.get? ⟨.projection, none⟩ = some k ∧
        (mapLayers.resolved .standard).endOf? ⟨.projection, none⟩ [1] = some b ∧
          (mapLayers.resolved .standard).componentAt? ⟨.projection, none⟩ b = some j ∧
            l.tree.label.lookup l.above .projection k.name = j.name) ∧
    ∃ d, mapLayers.compile .standard = .ok d ∧ d.shapes.length = 2 ∧
      ∀ shape ∈ d.shapes, ∃ n, shape.projection = some n ∧ .str n ∈ d.names .projection := by
  have hunnamed : mapLayers.view.Unnamed := by decide +kernel
  have hsome : ((mapLayers.resolved .standard).componentAt? ⟨.projection, none⟩ [1]).isSome =
      true := by
    decide +kernel
  have hlength : (mapLayers.compile .standard).toOption.map (fun d => d.shapes.length) = some 2 := by
    decide +kernel
  obtain ⟨-, hexact, hwritten⟩ := names_resolve .standard mapLayers
  refine ⟨hunnamed, ?ends, ?shapes⟩
  case ends =>
    obtain ⟨k, hk⟩ := Option.isSome_iff_exists.1 hsome
    obtain ⟨l, hl, hk⟩ := componentAt?_eq_some.1 hk
    obtain ⟨b, j, hb, hj, -, hname, -⟩ := hexact hunnamed [1] l _ k .projection hl hk rfl
    exact ⟨l, k, b, j, hl, hk, hb, hj, hname⟩
  case shapes =>
    cases hd : mapLayers.compile .standard with
    | error cause => rw [hd] at hlength; cases hlength
    | ok d =>
      rw [hd] at hlength
      exact ⟨d, rfl, Option.some.inj hlength, (hwritten d hd).1⟩

/-! ## References to scales -/

/-- A written reference to a scale is the component name of a live scale. It is the name of a
written scale exactly if some live scale is written under it: one that sets no name of its own is
written under its component's, but one that sets the property `name` is written under that. -/
theorem scale_references {settings : Settings} {t : TopLevelSpec} {d : Document}
    (ht : t.Accepted) (hd : t.compile settings = .ok d) :
    ∃ r, t.registered settings = .ok r ∧
      ∀ x, (t.resolved settings).ScaleReference r.link d x →
        (∃ a s k, s.family = .scale ∧ (t.resolved settings).componentAt? s a = some k ∧
          k.merged = false ∧ x = .str k.name ∧
          (k.explicit.get? "name" = none → x ∈ d.names .scale)) ∧
        (x ∈ d.names .scale ↔ ∃ a c k,
          (t.resolved settings).componentAt? ⟨.scale, c⟩ a = some k ∧ k.merged = false ∧
            k.writtenName = x) := by
  obtain ⟨r, hr, hcompiled⟩ := compiled_of_compile hd
  have h := isResolved_resolved settings t
  refine ⟨r, hr, ?_⟩
  intro x hx
  have hnames := hcompiled.mem_names_scale h ht.nodup_keys_defaults (x := x)
  refine ⟨?_, hnames⟩
  obtain ⟨a, n, rfl, b, s, k, -, hf, hk, hlive, rfl⟩ := hx.isLiveName h hcompiled
  refine ⟨b, s, k, hf, hk, hlive, rfl, ?_⟩
  intro hnone
  obtain ⟨f, c⟩ := s
  obtain rfl : f = .scale := hf
  refine hnames.2 ⟨b, c, k, hk, hlive, ?_⟩
  unfold Component.writtenName
  rw [hnone]
  rfl

/-- The marks of two layers refer to the scale that the layers share, and it is written. -/
theorem scale_references_logLayers : ∃ d r, logLayers.Accepted ∧
    logLayers.compile .standard = .ok d ∧ logLayers.registered .standard = .ok r ∧
      (logLayers.resolved .standard).ScaleReference r.link d (.str "x") ∧
        .str "x" ∈ d.names .scale ∧ ∃ a c k,
          (logLayers.resolved .standard).componentAt? ⟨.scale, c⟩ a = some k ∧
            k.merged = false ∧ k.writtenName = .str "x" := by
  have hok : (logLayers.compile .standard).toOption.any (fun d =>
      decide ("x" ∈ d.markScales) && decide (Json.str "x" ∈ d.names .scale)) = true := by
    decide +kernel
  cases hd : logLayers.compile .standard with
  | error cause => rw [hd] at hok; cases hok
  | ok d =>
    rw [hd] at hok
    have hboth := Bool.and_eq_true_iff.1 hok
    have hmark := of_decide_eq_true hboth.1
    have hname := of_decide_eq_true hboth.2
    obtain ⟨r, hr, hreferences⟩ := scale_references accepted_logLayers hd
    exact ⟨d, r, accepted_logLayers, rfl, hr, .mark hmark, hname,
      (hreferences _ (.mark hmark)).2.1 hname⟩

/-- A point on a scale that sets the property `name`. -/
def renamedScale : TopLevelSpec :=
  ⟨.unit ⟨none, some ⟨.name "cars", none⟩, none, none⟩
    ⟨⟨"point", .empty⟩, ⟨[(.x, .one ⟨.field "a", some .quantitative,
      some ⟨[("name", .str "custom")]⟩, .unset, .unset, .empty⟩)]⟩, none⟩, .empty, .plain⟩

/-- The mark and the axis refer to the scale `x`, and the only scale is written as `custom`. -/
theorem scale_reference_dangles : ∃ d, renamedScale.compile .standard = .ok d ∧
    "x" ∈ d.markScales ∧ .str "x" ∉ d.names .scale := by
  have hok : (renamedScale.compile .standard).toOption.any (fun d =>
      decide ("x" ∈ d.markScales) && decide (Json.str "x" ∉ d.names .scale)) = true := by
    decide +kernel
  cases hd : renamedScale.compile .standard with
  | error cause => rw [hd] at hok; cases hok
  | ok d =>
    rw [hd] at hok
    have hboth := Bool.and_eq_true_iff.1 hok
    exact ⟨d, rfl, of_decide_eq_true hboth.1, of_decide_eq_true hboth.2⟩

end TopLevelSpec

end ChartLowering
