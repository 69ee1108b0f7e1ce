import ChartLowering.Proofs.Dataset.Separation
import ChartLowering.Proofs.Output.Concatenation
import ChartLowering.Proofs.Output.FitSources
import ChartLowering.Proofs.Sharing.SingleLayer
import ChartLowering.Proofs.Similar.Entries

/-
  A layer around one unit shows in no part of a document but in the names of geometry signals.

  The layer registers nothing, and the unit in it registers its output under a name of its own, over
  the same root dataset. So a fit is backed in both documents or in none, by the same rows or by the
  geometry signals of the unit, whose names tell where the unit stands (`Wraps.fitExpressions_eq`).
  Everything else that is written is the same (`single_layer`).
-/

namespace ChartLowering

/-- A layer around one view that says nothing itself. -/
def ViewSpec.layered (v : ViewSpec) : ViewSpec := .layer ⟨none, none, none, none⟩ [v] .silent

namespace ViewTree

open View

theorem assigned_of_forall_self {m : NameMap} (h : ∀ e ∈ m.entries, e.2 = e.1) (n : String) :
    m.assigned n = n := by
  unfold NameMap.assigned
  cases hn : m.get? n with
  | none => rfl
  | some target => exact h _ (OrderedMap.mem_entries_of_get? hn)

variable {config : Config} {settings : Settings}

/-- Nothing is renamed at the top. -/
theorem IsResolved.lookup_scale_root {t : ViewTree} (h : IsResolved config settings t) (n : String) :
    t.label.lookup [] .scale n = n := by
  refine assigned_of_forall_self (m := t.label.scope.scales) ?_ n
  have hscope : t.label.scope.scales.entries =
      (t.label.componentsOf .scale).map fun k => (k.name, k.name) := h.root.scope .scale .scale rfl
  rw [hscope]
  intro e he
  obtain ⟨k, -, rfl⟩ := List.mem_map.1 he
  rfl

/-- At the top a guide refers to the scale that it names. -/
theorem guideScale_root {v w : View} {kids others : List ViewTree}
    (hv : IsResolved config settings (.node v kids))
    (hw : IsResolved config settings (.node w others)) (k : Component) :
    v.guideScale [] k = w.guideScale [] k := by
  have hlookup : ∀ n, v.lookup [] .scale n = w.lookup [] .scale n := fun n =>
    (hv.lookup_scale_root n).trans (hw.lookup_scale_root n).symm
  unfold guideScale
  simp only [hlookup]

namespace Wraps

variable {u : UnitSpec} {v w c : View} (h : Wraps config settings u v w c)

include h

/-! ## Signals -/

theorem signals_eq :
    signals config settings (.node w [.node c []]) = signals config settings (.node v []) := by
  have houter : sizeSignals config settings ⟨.node w [.node c []], []⟩ =
      sizeSignals config settings ⟨.node v [], []⟩ := by
    refine List.filterMap_congr fun d _ => ?_
    have hgroup : groupSize? d (.node w [.node c []]) = groupSize? d (.node v []) := by
      have hwkind : w.kind = .layer := by unfold View.kind; rw [h.outer]; rfl
      have hckind : c.kind = .unit := by unfold View.kind; rw [h.inner]; rfl
      have hvkind : v.kind = .unit := by unfold View.kind; rw [h.unit]; rfl
      have hsized : (Tree.node c []).label.isSized = true := isSized_of_unit h.inner
      simp [groupSize?, groupSizeAll?, hwkind, hckind, hvkind, hsized, h.size_outer, h.size_inner]
    have hvalue : defaultSize config settings d (.node w [.node c []]) =
        defaultSize config settings d (.node v []) := by
      unfold defaultSize
      rw [hgroup]
    have hpart : w.partName d.name = v.partName d.name := by
      rw [partName, partName, h.name, h.name_outer]
    obtain ⟨halone, hlayer, -⟩ := h.hasLiveSize d
    show (if w.hasLiveSize [] d = true then some (SignalDef.mk (w.partName d.name) _) else none) =
      if v.hasLiveSize [] d = true then some (SignalDef.mk (v.partName d.name) _) else none
    rw [hlayer, halone, hpart, hvalue]
  have hinner : sizeSignals config settings ⟨.node c [], [w]⟩ = [] := by
    refine List.filterMap_eq_nil_iff.2 fun d _ => ?_
    show (if c.hasLiveSize [w] d = true then _ else none) = none
    rw [(h.hasLiveSize d).2.2]
    rfl
  rw [signals_eq_flatMap, signals_eq_flatMap]
  simp only [Tree.walk_node, List.flatMap_cons, List.flatMap_nil, houter, hinner, List.append_nil]

/-! ## Scales and guides -/

/-- The scales and guides of the layer are those of the unit. -/
theorem liveEntries_outer {f : Family} (hf : f ≠ .projection) (r r' : Registry) :
    w.liveEntries r [] f = v.liveEntries r' [] f := by
  have hw := (h.layered.settled _ (Tree.self_mem_walk [] _)).liveEntries_eq r f
  have hv := (h.alone.settled _ (Tree.self_mem_walk [] _)).liveEntries_eq r' f
  change w.liveEntries r [] f = _ at hw
  change v.liveEntries r' [] f = _ at hv
  rw [hw, hv]
  refine List.filterMap_congr fun s _ => ?_
  show (w.components.get? s).bind _ = (v.components.get? s).bind _
  rw [h.get?_outer]
  cases v.components.get? s with
  | none => rfl
  | some k =>
    show (if s.family = f ∧ k.merged = false then
        some (w.entry r [] s (k.refit (c.fitSources u))) else none) =
      if s.family = f ∧ k.merged = false then some (v.entry r' [] s k) else none
    by_cases hboth : s.family = f ∧ k.merged = false
    · have hentry : w.entry r [] s (k.refit (c.fitSources u)) = v.entry r' [] s k := by
        obtain ⟨g, channel⟩ := s
        obtain rfl : g = f := hboth.1
        by_cases hguide : g.isGuide = true
        · rw [entry_guide hguide, entry_guide hguide]
          show (w.guideScale [] k).map _ = (v.guideScale [] k).map _
          rw [guideScale_root h.layered h.alone k]
          rfl
        · cases g with
          | scale => rfl
          | projection => exact absurd rfl hf
          | axis | legend => exact absurd rfl hguide
      rw [if_pos hboth, if_pos hboth, hentry]
    · rw [if_neg hboth, if_neg hboth]

/-- The unit in the layer writes nothing. -/
theorem liveEntries_inner (f : Family) (r : Registry) : c.liveEntries r [w] f = [] := by
  have hmem := Tree.child_mem_walk (Tree.self_mem_walk [] (Tree.node w [.node c []]))
    (List.mem_singleton.2 rfl)
  have hc := (h.layered.settled _ hmem).liveEntries_eq r f
  change c.liveEntries r [w] f = _ at hc
  rw [hc, List.filterMap_eq_nil_iff]
  intro s _
  show (c.components.get? s).bind _ = none
  cases hk : c.components.get? s with
  | none => rfl
  | some k => simp [h.merged_inner hk]

end Wraps

end ViewTree

/-! ## Datasets -/

namespace Registry

variable {r q : Registry}

/-- What was consulted makes no difference to the root dataset of a definition. -/
theorem sourceFor_note (r : Registry) (names : List String) (d : DataSpec) :
    (r.note names).sourceFor d = (r.sourceFor d).map fun e => (e.1, e.2.note names) := by
  have hnamed : ∀ n, (r.note names).namedSource n = r.namedSource n := fun _ => rfl
  have hsources : (r.note names).sources = r.sources := rfl
  unfold sourceFor
  simp only [hnamed, hsources]
  split
  · rfl
  · cases r.sources.get? (sourceKey d) with
    | some s => rfl
    | none =>
      cases d.origin with
      | name n => cases hn : r.namedSource n <;> simp only [hn] <;> rfl
      | values rows => rfl
      | url address => rfl

/-- Registering a unit with data over datasets of which some were consulted. -/
theorem registerOutput_unit {v : View} {u : UnitSpec} (hform : v.form = .unit u) {d : DataSpec}
    (hd : v.data = some d) (r : Registry) (names : List String) (index : Nat) :
    v.registerOutput (r.note names) index = (r.sourceFor d).map fun e =>
      (e.2.note names).register v.mainOutput ⟨some e.1, v.transforms u index⟩ := by
  unfold View.registerOutput
  simp only [hd, hform, sourceFor_note]
  cases r.sourceFor d <;> rfl

/-- An output over a root as it is is linked to the root. -/
theorem concrete_link_register (houtputs : r.outputs = .empty) (name : String) (s : Source) :
    (r.register name ⟨some s, []⟩).link.concrete.get? name = some s.name := by
  have hentries : (r.register name ⟨some s, []⟩).outputs.entries = [(name, ⟨some s, []⟩)] := by
    unfold register
    rw [houtputs]
    rfl
  unfold link
  rw [hentries]
  exact OrderedMap.get?_insert_self _ _ _

/-- Without outputs there is nothing to link. -/
theorem link_of_no_outputs (houtputs : r.outputs = .empty) : r.link = r := by
  unfold link
  rw [houtputs]
  rfl

/-! ## Expressions of fits -/

theorem distinct_of_nodup {l acc : List String} (h : (acc ++ l).Nodup) :
    l.foldl (fun acc e => if e ∈ acc then acc else acc ++ [e]) acc = acc ++ l := by
  induction l generalizing acc with
  | nil => rw [List.foldl_nil, List.append_nil]
  | cons e rest ih =>
    have he : e ∉ acc := fun hmem =>
      List.disjoint_of_nodup_append h hmem List.mem_cons_self
    rw [List.foldl_cons, if_neg he, ih (by rwa [← List.append_cons]), ← List.append_cons]

/-- A fit to different signals that are all there names these signals. -/
theorem fitExpressions_signals {names : List String} (hnames : names.Nodup)
    (h : ∀ n ∈ names, r.produces n = true) :
    r.fitExpressions (names.map fun n => FitSource.signal n .empty) = names := by
  have hbacked : (names.map fun n => FitSource.signal n .empty).filterMap r.fitExpression? =
      names := by
    rw [List.filterMap_map]
    conv => rhs; rw [← List.filterMap_some (l := names)]
    refine List.filterMap_congr fun n hn => ?_
    show (if r.produces n then some n else none) = some n
    rw [h n hn]
    rfl
  unfold fitExpressions
  rw [hbacked]
  exact distinct_of_nodup hnames

/-- A fit to signals none of which is there has no expression. -/
theorem fitExpressions_no_signals {names : List String} (h : ∀ n ∈ names, ¬ r.produces n = true) :
    r.fitExpressions (names.map fun n => FitSource.signal n .empty) = [] := by
  rw [fitExpressions_eq_nil_iff]
  intro s hs
  obtain ⟨n, hn, rfl⟩ := List.mem_map.1 hs
  exact fitExpression?_signal.2 (h n hn)

theorem fitExpressions_output (n : String) :
    r.fitExpressions [.output n] = ((r.concrete.get? n).map rowsExpression).toList := by
  have hsource : r.fitExpression? (.output n) = (r.concrete.get? n).map rowsExpression := rfl
  unfold fitExpressions
  rw [List.filterMap_cons, hsource]
  cases r.concrete.get? n <;> rfl

end Registry

theorem geometrySuffix_injective : Function.Injective geometrySuffix := fun i j h =>
  @Text.numbered_eq_of_append_eq "geojson_" i j [] [] (congrArg (fun s => s.toList ++ ['_']) h)

/-- The names of a unit's geometry signals where the unit has no name. -/
def UnitSpec.geometryNames (u : UnitSpec) : List String :=
  u.geometryRoles.zipIdx.map fun e => geometrySuffix e.2

theorem UnitSpec.nodup_geometryNames (u : UnitSpec) : u.geometryNames.Nodup := by
  have hnames : u.geometryNames = (List.range' 0 u.geometryRoles.length).map geometrySuffix := by
    rw [← List.zipIdx_map_snd, List.map_map]
    rfl
  rw [hnames]
  exact (List.nodup_range').map geometrySuffix_injective

theorem UnitSpec.geometryNames_ne_nil {u : UnitSpec} (h : u.geometryRoles ≠ []) :
    u.geometryNames ≠ [] := by
  unfold geometryNames
  rw [Ne, List.map_eq_nil_iff, List.zipIdx_eq_nil_iff]
  exact h

namespace View

/-- A unit without geometry has nothing to transform. -/
theorem transforms_of_no_geometry {u : UnitSpec} (h : u.geometryRoles = []) (v : View) (index : Nat) :
    v.transforms u index = [] := by
  have hpairs : u.coordinatePairs = [] := by
    unfold UnitSpec.geometryRoles at h
    exact List.map_eq_nil_iff.1 (List.append_eq_nil_iff.1 h).1
  unfold transforms
  split
  · rfl
  · unfold UnitSpec.extractions UnitSpec.projections
    rw [h, hpairs]
    split <;> rfl

theorem fitSources_of_no_geometry {u : UnitSpec} (h : u.geometryRoles = []) (v : View) :
    v.fitSources u = [.output v.mainOutput] := by
  unfold fitSources
  rw [h]
  rfl

/-- A unit is fit to its geometry signals, the names of which are parts of the unit's. -/
theorem fitSources_of_geometry {u : UnitSpec} (h : u.geometryRoles ≠ []) (v : View) :
    v.fitSources u = (u.geometryRoles.zipIdx.map fun e => v.partName (geometrySuffix e.2)).map
      fun n => .signal n .empty := by
  unfold fitSources
  cases hroles : u.geometryRoles with
  | nil => exact absurd hroles h
  | cons role rest => rw [List.map_map]; rfl

theorem extracted_unit {v : View} {u : UnitSpec} (hform : v.form = .unit u) {k : Component}
    (hk : v.component? .projection none = some k) (hfit : k.isFit = true) :
    v.extracted = if v.data = none then [] else
      u.geometryRoles.zipIdx.map fun e => v.partName (geometrySuffix e.2) := by
  unfold extracted
  cases hdata : v.data with
  | none => simp [hform]
  | some d => simp [hform, hk, hfit]

end View

/-- Whether a unit's projection is fit to the unit's geometry and nothing is said about that: no
explicit property places the projection or sets its fit. -/
def UnitSpec.FitsGeometry (config : Config) (u : UnitSpec) : Prop :=
  u.geometryRoles ≠ [] ∧ ∀ key ∈ ["scale", "translate", "fit"],
    (View.explicitFields config .projection (u.projection.getD .empty)).get? key = none

instance (config : Config) (u : UnitSpec) : Decidable (u.FitsGeometry config) :=
  inferInstanceAs (Decidable (_ ∧ _))

/-- What becomes of an entry of a unit's projection in a layer. It stays as it is, unless the
projection is fit to the unit's geometry: the fit, which nobody has set, is then to the signals below
the position of the layer. -/
structure Refitted (config : Config) (u : UnitSpec) (p p' : Fields) : Prop where
  same : ¬ u.FitsGeometry config → p' = p
  moved : u.FitsGeometry config → ∃ fit fit', fitExpression u.geometryNames = .ok fit ∧
    fitExpression (u.geometryNames.map ("layer_0_" ++ ·)) = .ok fit' ∧
    p.get? "fit" = some (Json.signalRef fit) ∧ p' = p.insert "fit" (Json.signalRef fit')

theorem Refitted.refl {config : Config} {u : UnitSpec} (h : ¬ u.FitsGeometry config) (p : Fields) :
    Refitted config u p p :=
  ⟨fun _ => rfl, fun hfits => absurd hfits h⟩

theorem exists_fitExpression {expressions : List String} (h : expressions ≠ []) :
    ∃ fit, fitExpression expressions = .ok fit := by
  cases expressions with
  | nil => exact absurd rfl h
  | cons first rest => cases rest <;> exact ⟨_, rfl⟩

namespace View

variable {r : Registry} {v : View} {above : List View} {k : Component} {sources : List FitSource}

/-- What completes a projection that is fit. -/
def fitBase (v : View) (above : List View) (k : Component) (fit : String) : Fields :=
  ⟨[("name", .str k.name),
    ("size", Json.signalRef ("[" ++ (v.fitArea above k).1 ++ ", " ++ (v.fitArea above k).2 ++ "]")),
    ("fit", Json.signalRef fit)]⟩

/-- A projection with a fit expression. -/
def fitFields (v : View) (above : List View) (k : Component) (fit : String) : Fields :=
  (v.fitBase above k fit).overlay k.properties

theorem fit_mem_fitBase (fit : String) : "fit" ∈ (v.fitBase above k fit).keys := by
  show "fit" ∈ ["name", "size", "fit"]
  decide

theorem fitBase_eq_insert (fit fit' : String) : v.fitBase above k fit' =
    (v.fitBase above k fit).insert "fit" (Json.signalRef fit') := rfl

theorem projectionFields_of_fit (hsources : k.data = some sources) {fit : String}
    (hfit : fitExpression (r.fitExpressions sources) = .ok fit) :
    projectionFields r v above k = .ok (v.fitFields above k fit) := by
  unfold projectionFields
  simp only [hsources]
  cases hexpressions : r.fitExpressions sources with
  | nil => rw [hexpressions] at hfit; cases hfit
  | cons first rest =>
    rw [hexpressions] at hfit
    simp only [hfit]
    rfl

theorem projectionFields_of_unbacked (hsources : k.data = some sources)
    (hnil : r.fitExpressions sources = []) :
    projectionFields r v above k = .error (.fitSourceMissing k.name v.name) := by
  unfold projectionFields
  simp only [hsources, hnil]

/-- A fit that is set hides the one that is written. -/
theorem fitFields_of_set (hset : "fit" ∈ k.explicit.keys) (fit fit' : String) :
    v.fitFields above k fit = v.fitFields above k fit' := by
  have hmem : "fit" ∈ k.properties.keys := by
    refine (OrderedMap.contains_iff_mem_keys _ _).1 ?_
    unfold OrderedMap.contains Component.properties
    rw [OrderedMap.get?_filterKeys, if_pos (by decide)]
    exact (OrderedMap.contains_iff_mem_keys _ _).2 (OrderedMap.mem_keys_overlay hset)
  unfold fitFields
  rw [fitBase_eq_insert fit fit', OrderedMap.overlay_insert_of_mem (fit_mem_fitBase fit) hmem]

/-- Where no fit is set, one is written. -/
theorem fitFields_of_unset (hset : k.explicit.get? "fit" = none)
    (himplicit : k.implicit.get? "fit" = none) (fit fit' : String) :
    (v.fitFields above k fit).get? "fit" = some (Json.signalRef fit) ∧
      v.fitFields above k fit' = (v.fitFields above k fit).insert "fit" (Json.signalRef fit') := by
  have hnone : "fit" ∉ k.properties.keys := by
    rw [← OrderedMap.get?_eq_none_iff]
    unfold Component.properties
    rw [OrderedMap.get?_filterKeys, if_pos (by decide)]
    have hunset : "fit" ∉ k.layers.explicit.keys := (OrderedMap.get?_eq_none_iff _ _).1 hset
    refine (OrderedMap.get?_overlay_of_notMem _ _ hunset).trans ?_
    exact (OrderedMap.get?_insert_of_ne _ _ (by decide)).trans himplicit
  unfold fitFields
  refine ⟨?_, ?_⟩
  · rw [OrderedMap.get?_overlay_of_notMem _ _ hnone]
    rfl
  · rw [OrderedMap.insert_overlay (fit_mem_fitBase fit) hnone, ← fitBase_eq_insert]

end View

namespace ViewTree

open View Registry

variable {config : Config} {settings : Settings} {u : UnitSpec} {v w c : View}

/-- The expressions that a unit's fit has by itself, and those that it has in a layer. -/
inductive FitsAlike (u : UnitSpec) : List String → List String → Prop where
  | unbacked : FitsAlike u [] []
  | rows (h : u.geometryRoles = []) (expression : String) : FitsAlike u [expression] [expression]
  | signals (h : u.geometryRoles ≠ []) :
      FitsAlike u u.geometryNames (u.geometryNames.map ("layer_0_" ++ ·))

namespace Wraps

variable (h : Wraps config settings u v w c) {r₀ r₁ q q' : Registry} {k : Component}

include h

theorem geometry_alone : (u.geometryRoles.zipIdx.map fun e => v.partName (geometrySuffix e.2)) =
    u.geometryNames := by
  refine List.map_congr_left fun e _ => ?_
  rw [partName, h.name, Text.qualified_of_isPart (by decide) (isPart_geometrySuffix _)]
  rfl

theorem geometry_inner : (u.geometryRoles.zipIdx.map fun e => c.partName (geometrySuffix e.2)) =
    u.geometryNames.map ("layer_0_" ++ ·) := by
  have hposition : layerPosition 0 ++ "_" = "layer_0_" := by decide +kernel
  rw [UnitSpec.geometryNames, List.map_map]
  refine List.map_congr_left fun e _ => ?_
  obtain ⟨hpart, hne⟩ := isPosition_layer 0
  rw [partName, h.name_inner, Text.qualified_of_isPart hpart (isPart_geometrySuffix _),
    Text.join_named hne, hposition]
  rfl

/-- The unit in the layer is fit if the unit is. -/
theorem exists_inner (hk : v.components.get? ⟨.projection, none⟩ = some k)
    (hfit : k.isFit = true) :
    ∃ j, c.component? .projection none = some j ∧ j.isFit = true := by
  have hs : (⟨.projection, none⟩ : Slot) ∈ sharingOrder := by decide
  have houter := h.get?_outer ⟨.projection, none⟩
  rw [hk, Option.map_some] at houter
  have hshared := h.get?_shared hs
  have hmay : w.mayShare .projection none = true := rfl
  rw [houter, hmay, if_pos rfl] at hshared
  obtain ⟨made, hmade, -⟩ := Option.map_eq_some_iff.1 hshared.symm
  obtain ⟨j, hj⟩ : ∃ j, c.components.get? ⟨.projection, none⟩ = some j := by
    rw [← Option.isSome_iff_exists, ← isSome_get?_asMade, hmade]
    rfl
  have hnone := (h.layered.fit_child (Tree.self_mem_walk [] _) (List.mem_singleton.2 rfl) houter hj).2
  refine ⟨j, hj, ?_⟩
  obtain ⟨sources, hsources⟩ := Option.isSome_iff_exists.1 hfit
  unfold Component.isFit
  rw [Option.isSome_iff_ne_none, Ne, hnone]
  unfold Component.refit
  rw [hsources]
  exact Option.some_ne_none _

/-- The unit registers the same root dataset in the layer as by itself. -/
theorem registered_outcome {r : Registry} (houtputs : r.outputs = .empty)
    (hconcrete : r.concrete = .empty) (names names' : List String) :
    SameOutcome (fun q q' => u.geometryRoles = [] →
        q.link.concrete.get? v.mainOutput = q'.link.concrete.get? c.mainOutput)
      ((r.note names).registerViews 0 [v]) ((r.note names').registerViews 0 [w, c]) := by
  have houter : w.registerOutput (r.note names') 0 = .ok (r.note names') := by
    unfold View.registerOutput
    rw [h.data_outer]
  have halone : (r.note names).registerViews 0 [v] = v.registerOutput (r.note names) 0 := by
    rw [registerViews]
    cases v.registerOutput (r.note names) 0 <;> rfl
  have hlayered : (r.note names').registerViews 0 [w, c] = c.registerOutput (r.note names') 1 := by
    rw [registerViews, houter]
    show (r.note names').registerViews 1 [c] = _
    rw [registerViews]
    cases c.registerOutput (r.note names') 1 <;> rfl
  rw [halone, hlayered]
  cases hd : v.data with
  | none =>
    have hcd := h.data_inner.trans hd
    unfold View.registerOutput
    rw [hd, hcd]
    refine .ok fun _ => ?_
    rw [link_of_no_outputs (r := r.note names) houtputs,
      link_of_no_outputs (r := r.note names') houtputs]
    show r.concrete.get? v.mainOutput = r.concrete.get? c.mainOutput
    rw [hconcrete]
    rfl
  | some d =>
    rw [registerOutput_unit h.unit hd, registerOutput_unit h.inner (h.data_inner.trans hd)]
    cases hs : r.sourceFor d with
    | error e => exact .error e
    | ok result =>
      obtain ⟨s, q⟩ := result
      refine .ok fun hroles => ?_
      have hq : q.outputs = .empty := by
        rcases sourceFor_cases hs with ⟨-, rfl⟩ | ⟨-, -, rfl⟩
        · exact houtputs
        · exact houtputs
      rw [transforms_of_no_geometry hroles, transforms_of_no_geometry hroles]
      exact (concrete_link_register (r := q.note names) hq _ _).trans
        (concrete_link_register (r := q.note names') hq _ _).symm

/-- What the unit is fit to in the layer is what it is fit to by itself, but for the names of its
signals. -/
theorem fitsAlike (hq : Registered r₀ q [v]) (hq' : Registered r₁ q' [w, c])
    (hrows : u.geometryRoles = [] →
      q.link.concrete.get? v.mainOutput = q'.link.concrete.get? c.mainOutput)
    (hk : v.components.get? ⟨.projection, none⟩ = some k) (hfit : k.isFit = true) :
    FitsAlike u (q.link.fitExpressions (v.fitSources u)) (q'.link.fitExpressions (c.fitSources u)) := by
  by_cases hroles : u.geometryRoles = []
  · rw [fitSources_of_no_geometry hroles, fitSources_of_no_geometry hroles, fitExpressions_output,
      fitExpressions_output, hrows hroles]
    cases q'.link.concrete.get? c.mainOutput with
    | none => exact .unbacked
    | some dataset => exact .rows hroles _
  · obtain ⟨j, hj, hjfit⟩ := h.exists_inner hk hfit
    have hv : ∀ n, q.link.produces n = true ↔ n ∈ v.extracted := by
      intro n
      rw [hq.backsViews.produces]
      simp
    have hc : ∀ n, q'.link.produces n = true ↔ n ∈ c.extracted := by
      intro n
      rw [hq'.backsViews.produces]
      simp [extracted_of_data_eq_none h.data_outer]
    rw [extracted_unit h.unit hk hfit, h.geometry_alone] at hv
    rw [extracted_unit h.inner hj hjfit, h.geometry_inner, h.data_inner] at hc
    rw [fitSources_of_geometry hroles, fitSources_of_geometry hroles, h.geometry_alone,
      h.geometry_inner]
    by_cases hd : v.data = none
    · rw [fitExpressions_no_signals, fitExpressions_no_signals]
      · exact .unbacked
      · intro n _
        rw [hc, if_pos hd]
        exact List.not_mem_nil
      · intro n _
        rw [hv, if_pos hd]
        exact List.not_mem_nil
    · have hinjective : Function.Injective ("layer_0_" ++ · : String → String) :=
        fun a b hab => (String.append_right_inj _).1 hab
      rw [fitExpressions_signals u.nodup_geometryNames,
        fitExpressions_signals (u.nodup_geometryNames.map hinjective)]
      · exact .signals hroles
      · intro n hn
        rwa [hc, if_neg hd]
      · intro n hn
        rwa [hv, if_neg hd]

/-! ## Projections -/

/-- A unit's projection as its view makes it. -/
theorem projection_eq (hk : v.components.get? ⟨.projection, none⟩ = some k) :
    k.explicit = explicitFields config .projection (u.projection.getD .empty) ∧
      k.implicit.get? "fit" = none ∧
      k.data = if isPlaced k.explicit then none else some (v.fitSources u) := by
  rw [h.get?_alone (by decide)] at hk
  change unitProjection? config settings [] v u = some k at hk
  unfold unitProjection? at hk
  split at hk
  · cases hk
  · obtain rfl := Option.some.inj hk
    refine ⟨rfl, rfl, ?_⟩
    unfold Component.define
    cases isPlaced (explicitFields config .projection (u.projection.getD .empty)) <;> rfl

theorem fitArea_eq (sources : List FitSource) (k : Component) :
    w.fitArea [] (k.refit sources) = v.fitArea [] k := by
  unfold fitArea
  rw [h.sizeSignal_outer, h.sizeSignal_outer]
  rfl

/-- A projection that is placed is centred, in the layer as by itself. -/
theorem projection_outcome_of_placed {r r' : Registry}
    (hk : v.components.get? ⟨.projection, none⟩ = some k) (hplaced : isPlaced k.explicit = true) :
    SameOutcome (Refitted config u) (projectionFields r v [] k)
      (projectionFields r' w [] (k.refit (c.fitSources u))) := by
  obtain ⟨hexplicit, -, hdata⟩ := h.projection_eq hk
  rw [if_pos hplaced] at hdata
  have hplain : ¬ u.FitsGeometry config := fun hfit => by
    have hnone := hfit.2
    rw [← hexplicit] at hnone
    unfold isPlaced OrderedMap.contains at hplaced
    rw [hnone "scale" (by simp), hnone "translate" (by simp)] at hplaced
    cases hplaced
  have hrefit : (k.refit (c.fitSources u)).data = none := by rw [Component.data_refit, hdata, Option.map_none]
  unfold projectionFields
  simp only [hdata, hrefit, h.sizeSignal_outer]
  exact .ok (.refl hplain _)

/-- A projection that is not placed and says nothing of its fit is fit to the geometry of the unit, if
there is some. -/
theorem fitsGeometry_of_fit (hk : v.components.get? ⟨.projection, none⟩ = some k)
    (hplaced : ¬ isPlaced k.explicit = true) (hroles : u.geometryRoles ≠ [])
    (hfit : "fit" ∉ k.explicit.keys) : u.FitsGeometry config := by
  obtain ⟨hexplicit, -, -⟩ := h.projection_eq hk
  refine ⟨hroles, ?_⟩
  rw [← hexplicit]
  unfold isPlaced OrderedMap.contains at hplaced
  rw [Bool.or_eq_true, not_or, Option.not_isSome_iff_eq_none,
    Option.not_isSome_iff_eq_none] at hplaced
  rw [← OrderedMap.get?_eq_none_iff] at hfit
  rw [List.forall_mem_cons, List.forall_mem_cons, List.forall_mem_singleton]
  exact ⟨hplaced.1, hplaced.2, hfit⟩

/-- The unit's projection is written in the layer as it is by itself, but for the names of the unit's
geometry signals. -/
theorem projection_outcome {r r' : Registry} (hk : v.components.get? ⟨.projection, none⟩ = some k)
    (hfits : k.isFit = true →
      FitsAlike u (r.fitExpressions (v.fitSources u)) (r'.fitExpressions (c.fitSources u))) :
    SameOutcome (Refitted config u) (projectionFields r v [] k)
      (projectionFields r' w [] (k.refit (c.fitSources u))) := by
  by_cases hplaced : isPlaced k.explicit = true
  · exact h.projection_outcome_of_placed hk hplaced
  obtain ⟨hexplicit, himplicit, hdata⟩ := h.projection_eq hk
  rw [if_neg hplaced] at hdata
  have hrefit : (k.refit (c.fitSources u)).data = some (c.fitSources u) := by
    rw [Component.data_refit, hdata, Option.map_some]
  have hwritten := hfits (Component.isFit_of_data hdata)
  generalize hr : r.fitExpressions (v.fitSources u) = expressions at hwritten
  generalize hr' : r'.fitExpressions (c.fitSources u) = moved at hwritten
  have houter : ∀ fit, w.fitFields [] (k.refit (c.fitSources u)) fit = v.fitFields [] k fit := by
    intro fit
    unfold fitFields fitBase
    rw [h.fitArea_eq]
    rfl
  cases hwritten with
  | unbacked =>
    rw [projectionFields_of_unbacked hdata hr, projectionFields_of_unbacked hrefit hr', h.name,
      h.name_outer]
    exact .error _
  | rows hroles expression =>
    rw [projectionFields_of_fit hdata (by rw [hr]; rfl),
      projectionFields_of_fit hrefit (by rw [hr']; rfl), houter]
    exact .ok (.refl (fun hfits => hfits.1 hroles) _)
  | signals hroles =>
    obtain ⟨fit, hfit⟩ := exists_fitExpression (UnitSpec.geometryNames_ne_nil hroles)
    obtain ⟨fit', hfit'⟩ := exists_fitExpression
      (mt List.map_eq_nil_iff.1 (UnitSpec.geometryNames_ne_nil hroles))
    rw [projectionFields_of_fit hdata (hr ▸ hfit), projectionFields_of_fit hrefit (hr' ▸ hfit'),
      houter]
    refine .ok ⟨fun hset => fitFields_of_set ?_ fit' fit, fun hfits => ⟨fit, fit', hfit, hfit', ?_⟩⟩
    · by_contra hnone
      exact hset (h.fitsGeometry_of_fit hk hplaced hroles hnone)
    · exact fitFields_of_unset (hexplicit ▸ hfits.2 "fit" (by simp)) himplicit fit fit'

/-! ## Documents -/

theorem projections_outcome {r r' : Registry}
    (hfits : ∀ k, v.components.get? ⟨.projection, none⟩ = some k → k.isFit = true →
      FitsAlike u (r.fitExpressions (v.fitSources u)) (r'.fitExpressions (c.fitSources u))) :
    List.Forall₂ (SameOutcome (Refitted config u)) (v.liveEntries r [] .projection)
      (w.liveEntries r' [] .projection) := by
  have hsettled := h.alone.settled _ (Tree.self_mem_walk [] _)
  have hv := hsettled.liveEntries_eq r .projection
  have hw := (h.layered.settled _ (Tree.self_mem_walk [] _)).liveEntries_eq r' .projection
  change v.liveEntries r [] .projection = _ at hv
  change w.liveEntries r' [] .projection = _ at hw
  rw [hv, hw]
  refine List.rel_filterMap (R := Eq) ?_ (List.forall₂_refl _)
  rintro s _ rfl
  show Option.Rel _ ((v.components.get? s).bind _) ((w.components.get? s).bind _)
  rw [h.get?_outer]
  cases hk : v.components.get? s with
  | none => exact .none
  | some k =>
    show Option.Rel _
      (if s.family = .projection ∧ k.merged = false then some (v.entry r [] s k) else none)
      (if s.family = .projection ∧ k.merged = false then
        some (w.entry r' [] s (k.refit (c.fitSources u))) else none)
    by_cases hboth : s.family = .projection ∧ k.merged = false
    · rw [if_pos hboth, if_pos hboth]
      obtain rfl := slot_of_projection s (hsettled.mem_sharingOrder hk) hboth.1
      exact .some (h.projection_outcome hk (hfits k hk))
    · rw [if_neg hboth, if_neg hboth]
      exact .none

/-- How the entries of a unit and those of a layer around it are related. -/
def EntryAlike (config : Config) (u : UnitSpec) : Family → Fields → Fields → Prop
  | .projection => Refitted config u
  | _ => Eq

theorem componentLists_inner (r : Registry) : c.componentLists r [w] = .ok .empty := by
  have hlive : ∀ f, c.liveComponents f = [] := fun f =>
    List.map_eq_nil_iff.1 (h.liveEntries_inner f r)
  unfold View.componentLists
  simp only [hlive]
  rfl

theorem componentLists_outcome {r r' : Registry}
    (hfits : ∀ k, v.components.get? ⟨.projection, none⟩ = some k → k.isFit = true →
      FitsAlike u (r.fitExpressions (v.fitSources u)) (r'.fitExpressions (c.fitSources u))) :
    SameOutcome (ComponentLists.Related (EntryAlike config u))
      (ViewTree.componentLists r ((Tree.node v []).walk []))
      (ViewTree.componentLists r' ((Tree.node w [.node c []]).walk [])) := by
  have hentries : ∀ f, List.Forall₂ (SameOutcome (EntryAlike config u f))
      (v.liveEntries r [] f) (w.liveEntries r' [] f) := by
    intro f
    by_cases hf : f = .projection
    · rw [hf]
      exact h.projections_outcome hfits
    · have hsame : EntryAlike config u f = Eq := by
        cases f with
        | projection => exact absurd rfl hf
        | scale | axis | legend => rfl
      rw [h.liveEntries_outer hf r' r, hsame]
      exact List.forall₂_same.2 fun x _ => .of_eq rfl
  have halone : ViewTree.componentLists r ((Tree.node v []).walk []) =
      (v.componentLists r [] >>= fun here => .ok (here.append .empty)) := rfl
  have hlayered : ViewTree.componentLists r' ((Tree.node w [.node c []]).walk []) =
      (w.componentLists r' [] >>= fun here => .ok (here.append .empty)) := by
    show (w.componentLists r' [] >>= fun here =>
      ViewTree.componentLists r' [⟨.node c [], [w]⟩] >>= fun rest => .ok (here.append rest)) = _
    have hinner : ViewTree.componentLists r' [⟨.node c [], [w]⟩] = .ok .empty := by
      show (c.componentLists r' [w] >>= fun here => .ok (here.append .empty)) = _
      rw [h.componentLists_inner]
      rfl
    rw [hinner]
    rfl
  rw [halone, hlayered]
  exact (View.componentLists_outcome hentries).bind fun here here' hhere =>
    .ok (hhere.append ComponentLists.related_empty)

end Wraps

/-! ## The trees of the two specifications -/

/-- What a view is before anything is made or shared. -/
def planned (v : View) : View := { v with scope := .empty, components := .empty }

theorem planned_viewOf (name : String) (form : ViewForm) (base : ViewBase)
    (inherited : Option DataSpec) : planned (viewOf name form base inherited) =
      ⟨name, form, base.width, base.height, base.data, base.data.or inherited, .empty, .empty⟩ := by
  unfold viewOf
  simp only
  split <;> rfl

theorem map_planned_resolved (settings : Settings) (t : TopLevelSpec) :
    (t.resolved settings).map planned = (ofSpec t.view).map planned :=
  map_resolved (fun _ _ => rfl) (fun _ => rfl) settings t

theorem eq_node_of_map {f : View → View} {t : ViewTree} {a : View} (h : t.map f = .node a []) :
    ∃ v, t = .node v [] ∧ f v = a := by
  obtain ⟨v, kids⟩ := t
  rw [Tree.map_node] at h
  obtain ⟨hv, hkids⟩ := Tree.node.inj h
  exact ⟨v, by rw [List.map_eq_nil_iff.1 hkids], hv⟩

theorem eq_node_of_map_singleton {f : View → View} {t : ViewTree} {a b : View}
    (h : t.map f = .node a [.node b []]) : ∃ v w, t = .node v [.node w []] ∧ f v = a ∧ f w = b := by
  obtain ⟨v, kids⟩ := t
  rw [Tree.map_node] at h
  obtain ⟨hv, hkids⟩ := Tree.node.inj h
  obtain ⟨kid, rfl, hkid⟩ := List.map_eq_singleton_iff.1 hkids
  obtain ⟨w, rfl, hw⟩ := eq_node_of_map hkid
  exact ⟨v, w, rfl, hv, hw⟩

variable (settings : Settings) {b : ViewBase} (hname : b.name.getD "" = "") (u : UnitSpec)
  (datasets : OrderedMap String (List Fields)) (config : Config)

theorem planned_alone : ((⟨.unit b u, datasets, config⟩ : TopLevelSpec).resolved settings).map planned =
    .node ⟨b.name.getD "", .unit u, b.width, b.height, b.data, b.data.or none, .empty, .empty⟩ [] := by
  rw [map_planned_resolved]
  show (build (b.name.getD "") none (.unit b u)).map planned = _
  rw [build, Tree.map_node, planned_viewOf]
  rfl

include hname

theorem planned_layered :
    ((⟨(ViewSpec.unit b u).layered, datasets, config⟩ : TopLevelSpec).resolved settings).map planned =
      .node ⟨"", .layer .silent, none, none, none, none, .empty, .empty⟩
        [.node ⟨layerPosition 0, .unit u, b.width, b.height, b.data, b.data.or none, .empty, .empty⟩
          []] := by
  have hdata : (viewOf "" (.layer .silent) ⟨none, none, none, none⟩ none).data = none :=
    congrArg View.data (planned_viewOf "" (.layer .silent) ⟨none, none, none, none⟩ none)
  have hchild : childName "" (layerPosition 0) b.name = layerPosition 0 :=
    childName_unnamed "" (layerPosition 0) hname
  rw [map_planned_resolved]
  show (build "" none (.layer ⟨none, none, none, none⟩ [.unit b u] .silent)).map planned = _
  rw [build, buildAll, buildAll, hdata]
  show (Tree.node _ [build (childName "" (layerPosition 0) b.name) none (.unit b u)]).map planned = _
  rw [hchild, build, Tree.map_node, List.map_singleton, Tree.map_node, planned_viewOf, planned_viewOf]
  rfl

/-- The resolved trees of a unit without a name and of a layer around it. -/
theorem exists_wraps :
    ∃ v w c, (⟨.unit b u, datasets, config⟩ : TopLevelSpec).resolved settings = .node v [] ∧
      (⟨(ViewSpec.unit b u).layered, datasets, config⟩ : TopLevelSpec).resolved settings =
        .node w [.node c []] ∧
      Wraps config settings u v w c := by
  have hunnamed : (ViewSpec.unit b u).Unnamed := by
    intro base hbase
    rwa [List.mem_singleton.1 hbase]
  have hunnamed' : (ViewSpec.unit b u).layered.Unnamed := by
    intro base hbase
    change base ∈ [(⟨none, none, none, none⟩ : ViewBase), b] at hbase
    rw [List.mem_pair] at hbase
    rcases hbase with rfl | rfl
    · rfl
    · exact hname
  obtain ⟨v, hv, hplanned⟩ := eq_node_of_map (planned_alone settings u datasets config)
  obtain ⟨w, c, hw, houter, hinner⟩ :=
    eq_node_of_map_singleton (planned_layered settings hname u datasets config)
  refine ⟨v, w, c, hv, hw, ?_⟩
  exact {
    alone := hv ▸ isResolved_resolved settings ⟨.unit b u, datasets, config⟩
    layered := hw ▸ isResolved_resolved settings ⟨(ViewSpec.unit b u).layered, datasets, config⟩
    unit := congrArg View.form hplanned
    outer := congrArg View.form houter
    inner := congrArg View.form hinner
    name := (congrArg View.name hplanned).trans hname
    name_outer := congrArg View.name houter
    name_inner := congrArg View.name hinner
    data_outer := congrArg View.data houter
    data_inner := (congrArg View.data hinner).trans (congrArg View.data hplanned).symm
    size_outer := fun d => (congrArg (fun x => View.explicitSize x d) houter).trans
      (by cases d <;> rfl)
    size_inner := fun d => (congrArg (fun x => View.explicitSize x d) hinner).trans
      (congrArg (fun x => View.explicitSize x d) hplanned).symm
    sizes := hv ▸ sizeScoped_resolved settings ⟨.unit b u, datasets, config⟩
    sizes_layered := hw ▸ sizeScoped_resolved settings ⟨(ViewSpec.unit b u).layered, datasets, config⟩
    numbered := hv ▸ numbered_resolved settings (t := ⟨.unit b u, datasets, config⟩) hunnamed
    numbered_layered := hw ▸ numbered_resolved settings
      (t := ⟨(ViewSpec.unit b u).layered, datasets, config⟩) hunnamed' }

end ViewTree

namespace TopLevelSpec

open ViewTree Registry

variable {settings : Settings} {b : ViewBase} {u : UnitSpec}
  {datasets : OrderedMap String (List Fields)} {config : Config}

/-- Whether a document is that of a unit, written for a layer around the unit. -/
structure LayerOf (config : Config) (u : UnitSpec) (d d' : Document) : Prop where
  signals : d'.signals = d.signals
  scales : d'.scales = d.scales
  axes : d'.axes = d.axes
  legends : d'.legends = d.legends
  projections : List.Forall₂ (Refitted config u) d.projections d'.projections

theorem layered_outcome (hname : b.name.getD "" = "") :
    SameOutcome (LayerOf config u)
      ((⟨.unit b u, datasets, config⟩ : TopLevelSpec).compile settings)
      ((⟨(ViewSpec.unit b u).layered, datasets, config⟩ : TopLevelSpec).compile settings) := by
  obtain ⟨v, w, c, hv, hw, h⟩ := exists_wraps settings hname u datasets config
  have hregistered := (h.registered_outcome
    (r := Registry.start (datasets.mapValues DataSpec.rowsJson) settings.isStrict) rfl rfl
    (requestedOutputs (.node v [])) (requestedOutputs (.node w [.node c []]))).with_results
  unfold TopLevelSpec.compile compileWithData registered requested
  rw [hv, hw]
  refine SameOutcome.map ?_ fun _ _ hresult => hresult
  refine hregistered.bind fun q q' hq => ?_
  obtain ⟨hrows, hq, hq'⟩ := hq
  have hfits := fun k hk hfit => h.fitsAlike (k := k)
    (registered_registerViews (registered_start _ _ _) hq)
    (registered_registerViews (registered_start _ _ _) hq') hrows hk hfit
  unfold assemble
  refine (h.componentLists_outcome hfits).bind fun lists lists' hlists => .ok ?_
  exact ⟨h.signals_eq, (List.forall₂_eq_eq_eq ▸ hlists .scale).symm,
    (List.forall₂_eq_eq_eq ▸ hlists .axis).symm, (List.forall₂_eq_eq_eq ▸ hlists .legend).symm,
    hlists .projection⟩

/-- A layer around one view is transparent. Take a unit without a name of its own, with any
configuration, datasets and settings. It compiles by itself if and only if a layer around it compiles
that says nothing, and otherwise both end in the same error. The two documents have the same signals,
scales, axes and legends, and the same projections, except that a fit to the geometry signals of the
unit that nobody has set is to those of the unit in the layer. -/
theorem layer_transparent {settings : Settings} {b : ViewBase} {u : UnitSpec}
    {datasets : OrderedMap String (List Fields)} {config : Config} (hname : b.name.getD "" = "") :
    (∀ e, (⟨.unit b u, datasets, config⟩ : TopLevelSpec).compile settings = .error e ↔
      (⟨(ViewSpec.unit b u).layered, datasets, config⟩ : TopLevelSpec).compile settings = .error e) ∧
    ((∃ d, (⟨.unit b u, datasets, config⟩ : TopLevelSpec).compile settings = .ok d) ↔
      ∃ d, (⟨(ViewSpec.unit b u).layered, datasets, config⟩ : TopLevelSpec).compile settings = .ok d) ∧
    ∀ d d', (⟨.unit b u, datasets, config⟩ : TopLevelSpec).compile settings = .ok d →
      (⟨(ViewSpec.unit b u).layered, datasets, config⟩ : TopLevelSpec).compile settings = .ok d' →
        LayerOf config u d d' :=
  have h := layered_outcome hname
  ⟨h.error_iff, h.ok_iff, fun _ _ hd hd' => h.of_ok hd hd'⟩

/-- A map of the shapes in a field of a dataset. -/
def shapesOfLand : ViewSpec := .unit ⟨none, some ⟨.name "land", none⟩, none, none⟩ shapesMap

/-- In a layer the map is fit to the shapes under another name, and is otherwise as it is by itself. -/
theorem layer_transparent_shapesOfLand : ∃ d d' p,
    (⟨shapesOfLand, .empty, .plain⟩ : TopLevelSpec).compile .standard = .ok d ∧
    (⟨shapesOfLand.layered, .empty, .plain⟩ : TopLevelSpec).compile .standard = .ok d' ∧
    d.projections = [p] ∧ p.get? "fit" = some (Json.signalRef "geojson_0") ∧
    d'.projections = [p.insert "fit" (Json.signalRef "layer_0_geojson_0")] ∧
    d.signals.map SignalDef.name = ["width", "height"] ∧ d'.signals = d.signals := by
  have hfacts : ((⟨shapesOfLand, .empty, .plain⟩ : TopLevelSpec).compile .standard).toOption.any
      (fun d => d.projections.length == 1 && d.signals.map SignalDef.name == ["width", "height"]) =
        true := by
    decide +kernel
  have hfits : shapesMap.FitsGeometry .plain := by decide
  have hnames : shapesMap.geometryNames = ["geojson_0"] := by decide +kernel
  obtain ⟨-, hok, hlayer⟩ := @layer_transparent .standard
    ⟨none, some ⟨.name "land", none⟩, none, none⟩ shapesMap .empty .plain rfl
  cases hd : (⟨shapesOfLand, .empty, .plain⟩ : TopLevelSpec).compile .standard with
  | error e => rw [hd] at hfacts; cases hfacts
  | ok d =>
    rw [hd] at hfacts
    obtain ⟨hone, hsizes⟩ := Bool.and_eq_true_iff.1 hfacts
    obtain ⟨d', hd'⟩ := hok.1 ⟨d, hd⟩
    obtain ⟨p, hp⟩ := List.length_eq_one_iff.1 (beq_iff_eq.1 hone)
    have hresult := hlayer d d' hd hd'
    have hprojections := hresult.projections
    rw [hp, List.forall₂_cons_left_iff] at hprojections
    obtain ⟨p', rest, hmoved, hrest, hp'⟩ := hprojections
    obtain rfl := List.forall₂_nil_left_iff.1 hrest
    obtain ⟨fit, fit', hfit, hfit', hget, rfl⟩ := hmoved.moved hfits
    rw [hnames] at hfit hfit'
    obtain rfl := Except.ok.inj hfit
    obtain rfl := Except.ok.inj hfit'
    exact ⟨d, d', p, rfl, hd', hp, hget, hp', beq_iff_eq.1 hsizes, hresult.signals⟩

end TopLevelSpec

end ChartLowering
