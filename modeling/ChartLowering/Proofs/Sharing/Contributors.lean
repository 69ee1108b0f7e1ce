import ChartLowering.Proofs.Sharing.Promotion

/-
  What a shared projection is fit to.

  The units that contribute to a component are those whose component was merged into it through any
  number of levels (`contributors`). A component fills an area if and only if it is fit, and only
  components that agree on this merge, so all units that contribute to a fit projection are fit. Its
  fit data are what these units gathered, in the order of the walk and with repetitions
  (`fit_data_eq_flatMap`).
-/

namespace ChartLowering

theorem Component.isFit_of_data {k : Component} {sources : List FitSource}
    (h : k.data = some sources) : k.isFit = true := by
  rw [isFit, h]
  rfl

namespace View

/-- Whether the view's component of a slot was merged into the parent's. -/
def hasMerged (s : Slot) (v : View) : Bool := (v.components.get? s).any Component.merged

theorem hasMerged_of_get? {v : View} {s : Slot} {k : Component} (h : v.components.get? s = some k) :
    v.hasMerged s = k.merged := by
  rw [hasMerged, h, Option.any_some]

theorem hasMerged_of_none {v : View} {s : Slot} (h : v.components.get? s = none) :
    v.hasMerged s = false := by
  rw [hasMerged, h, Option.any_none]

end View

namespace ViewTree

open View

/-! ## Contributing units -/

/-- The unit of a node, unless a component of the slot was not merged on the way from the node to
the root. -/
def contributor? (s : Slot) (l : Located View) : Option (View × UnitSpec) :=
  match l.tree.label.form with
  | .unit u =>
    if (l.tree.label :: l.above).dropLast.all (hasMerged s) then some (l.tree.label, u) else none
  | _ => none

/-- The units whose component of a slot was merged into the root's, or is the root's, in the order
of the walk. -/
def contributors (s : Slot) (t : ViewTree) : List (View × UnitSpec) :=
  (t.walk []).filterMap (contributor? s)

theorem contributors_unit {s : Slot} {v : View} {u : UnitSpec} (h : v.form = .unit u) :
    contributors s (.node v []) = [(v, u)] := by
  have hself : contributor? s ⟨.node v [], []⟩ = some (v, u) := by
    unfold contributor?
    simp only [Tree.label, h]
    rfl
  unfold contributors
  rw [Tree.walk_node, List.filterMap_cons, hself]
  rfl

/-- One level further up a unit contributes if it did so far and the tree's own component was merged
too. -/
theorem contributor?_below {s : Slot} {t : ViewTree} {l : Located View} (h : l ∈ t.walk [])
    (v : View) :
    contributor? s ⟨l.tree, l.above ++ [v]⟩ =
      if t.label.hasMerged s then contributor? s l else none := by
  obtain ⟨between, hbetween⟩ := Tree.exists_between_of_mem_walk h
  have habove : (l.tree.label :: (l.above ++ [v])).dropLast = between ++ [t.label] := by
    rw [← List.cons_append, List.dropLast_concat, hbetween]
  unfold contributor?
  simp only
  rw [habove, hbetween, List.dropLast_concat, List.all_append]
  cases l.tree.label.form with
  | unit u => cases hm : t.label.hasMerged s <;> simp [hm]
  | layer | facet | concat => simp

/-- To a composite's component contribute those who contribute to the merged ones of its children. -/
theorem contributors_composite {s : Slot} {v : View} {kids : List ViewTree}
    (h : ∀ u, v.form ≠ .unit u) :
    contributors s (.node v kids) =
      kids.flatMap fun t => if t.label.hasMerged s then contributors s t else [] := by
  have hself : contributor? s ⟨.node v kids, []⟩ = none := by
    unfold contributor?
    split
    · rename_i u hu
      exact absurd hu (h u)
    · rfl
  unfold contributors
  rw [Tree.walk_node, List.filterMap_cons, hself]
  show List.filterMap _ (kids.flatMap (Tree.walk [v])) = _
  rw [List.filterMap_flatMap]
  refine List.flatMap_congr fun t _ => ?_
  have hbelow : Tree.walk [v] t = (t.walk []).map fun l => ⟨l.tree, l.above ++ [v]⟩ :=
    Tree.walk_append t [] [v]
  rw [hbelow, List.filterMap_map]
  have hstep : ∀ l ∈ t.walk [], (contributor? s ∘ fun l => ⟨l.tree, l.above ++ [v]⟩) l =
      if t.label.hasMerged s then contributor? s l else none :=
    fun l hl => contributor?_below hl v
  rw [List.filterMap_congr hstep]
  split <;> simp

/-! ## Components that fill an area -/

variable {config : Config} {settings : Settings} {l : Located View} {t : ViewTree}

theorem presentAt_asMade (kids : List ViewTree) (s : Slot) :
    presentAt (kids.map fun t => t.label.asMade) s =
      kids.filterMap fun t => (t.label.components.get? s).map Component.unmerged := by
  unfold presentAt
  rw [List.filterMap_map]
  congr 1
  funext t
  show t.label.asMade.liveComponent? s.family s.channel = _
  unfold liveComponent? component?
  rw [get?_asMade]
  cases t.label.components.get? s <;> rfl

theorem data_sharedComponent (v : View) (f : Family) (c : Option Channel) (r : Component)
    (present : List Component) :
    (v.sharedComponent f c r present).data = gatherFit present ∧
      (v.sharedComponent f c r present).size = r.size := by
  unfold sharedComponent
  simp only
  split <;> exact ⟨rfl, rfl⟩

/-- Nothing is gathered only where no component is fit. -/
theorem gatherFit_eq_none_iff {present : List Component} :
    gatherFit present = none ↔ ∀ k ∈ present, k.data = none := by
  rw [← List.filterMap_eq_nil_iff]
  unfold gatherFit
  split <;> simp_all

theorem flatMap_filterMap {α β γ : Type} (l : List α) (f : α → Option β) (g : β → List γ) :
    (l.filterMap f).flatMap g = l.flatMap fun a => (f a).toList.flatMap g := by
  rw [List.filterMap_eq_flatMap_toList, List.flatMap_assoc]

/-- Gathered fit data are those of all components in order. -/
theorem eq_flatMap_of_gatherFit {present : List Component} {sources : List FitSource}
    (h : gatherFit present = some sources) :
    sources = present.flatMap fun k => k.data.getD [] := by
  unfold gatherFit at h
  split at h
  · cases h
  · rw [← Option.some.inj h, List.flatten_eq_flatMap, flatMap_filterMap]
    refine List.flatMap_congr fun k _ => ?_
    cases k.data <;> simp

/-- What the shared component of a composite fills, and what it is fit to. -/
theorem Settled.fit_composite (h : Settled config settings l)
    (hform : ∀ u, l.tree.label.form ≠ .unit u) {s : Slot} {k : Component}
    (hk : l.tree.label.components.get? s = some k) :
    k.data = gatherFit (presentAt (l.tree.children.map fun t => t.label.asMade) s) ∧
      ∃ u ∈ l.tree.children, ∃ j, u.label.components.get? s = some j ∧ k.size = j.size ∧
        ∀ w ∈ l.tree.children, ∀ i, w.label.components.get? s = some i →
          (j.size = none ↔ i.size = none) := by
  obtain ⟨-, r, hr, heq⟩ := h.sharedFrom hform hk
  obtain ⟨hdata, hsize⟩ := data_sharedComponent l.tree.label.asMade s.family s.channel r
    (presentAt (l.tree.children.map fun t => t.label.asMade) s)
  rw [← heq] at hdata hsize
  obtain ⟨u, hu, j, hj, rfl⟩ := mem_presentAt.1 (Component.mem_of_reduce hr)
  refine ⟨hdata, u, hu, j, hj, hsize, ?_⟩
  intro w hw i hi
  exact Component.size_eq_none_iff_of_reduce hr i.unmerged (mem_presentAt.2 ⟨w, hw, i, hi, rfl⟩)

/-- A component is fit if and only if it fills an area. -/
theorem IsResolved.data_eq_none_iff (h : IsResolved config settings t) :
    ∀ l ∈ t.walk [], ∀ s k, l.tree.label.components.get? s = some k →
      (k.data = none ↔ k.size = none) := by
  apply Tree.forall_walk_up
  intro l hl ih s k hk
  have hsettled := h.settled l hl
  by_cases hform : ∃ u, l.tree.label.form = .unit u
  · obtain ⟨u, hu⟩ := hform
    have hget := get?_asMade_of_some hk
    rw [hsettled.get?_unit hu (hsettled.mem_sharingOrder hk)] at hget
    show k.unmerged.data = none ↔ k.unmerged.size = none
    rcases unitComponent?_fit hget with ⟨hdata, hsize⟩ | ⟨hdata, hsize⟩ <;> rw [hdata, hsize] <;> simp
  · obtain ⟨hdata, u, hu, j, hj, hsize, hall⟩ := hsettled.fit_composite (not_exists.1 hform) hk
    rw [hdata, hsize, gatherFit_eq_none_iff]
    constructor
    · intro hnone
      rw [← ih u hu s j hj]
      exact hnone j.unmerged (mem_presentAt.2 ⟨u, hu, j, hj, rfl⟩)
    · intro hnone p hp
      obtain ⟨w, hw, i, hi, rfl⟩ := mem_presentAt.1 hp
      exact (ih w hw s i hi).2 ((hall w hw i hi).1 hnone)

/-- A unit is fit to what it gathers. -/
theorem Settled.data_unit (h : Settled config settings l) {u : UnitSpec}
    (hform : l.tree.label.form = .unit u) {s : Slot} {k : Component} {sources : List FitSource}
    (hk : l.tree.label.components.get? s = some k) (hsources : k.data = some sources) :
    sources = l.tree.label.fitSources u := by
  have hget := get?_asMade_of_some hk
  rw [h.get?_unit hform (h.mem_sharingOrder hk)] at hget
  rcases unitComponent?_fit hget with ⟨hnone, -⟩ | ⟨hdata, -⟩
  · exact absurd (hnone.symm.trans hsources) (by simp)
  · exact Option.some.inj (hsources.symm.trans hdata)

/-- What a shared component was made of is merged, and is fit if and only if the shared component is. -/
theorem IsResolved.fit_child (h : IsResolved config settings t) {l : Located View}
    (hl : l ∈ t.walk []) {w : ViewTree} (hw : w ∈ l.tree.children) {s : Slot} {k i : Component}
    (hk : l.tree.label.components.get? s = some k) (hi : w.label.components.get? s = some i) :
    w.label.hasMerged s = true ∧ (i.data = none ↔ k.data = none) := by
  have hsettled := h.settled l hl
  have hlw := Tree.child_mem_walk hl hw
  obtain ⟨-, u, hu, j, hj, hsize, hall⟩ := hsettled.fit_composite (hsettled.form_ne_unit hw) hk
  constructor
  · rw [hasMerged_of_get? hi, hsettled.merged_iff hw (h.settled _ hlw) hi, hk]
    rfl
  · rw [h.data_eq_none_iff _ hlw s i hi, ← hall w hw i hi, ← hsize,
      ← h.data_eq_none_iff _ hl s k hk]

/-! ## Fit data -/

/-- Whether fit data are what some units gathered, all of which are fit. -/
def GatheredFrom (units : List (View × UnitSpec)) (sources : List FitSource) : Prop :=
  sources = (units.flatMap fun c => c.1.fitSources c.2) ∧
    ∀ c ∈ units, ∃ j, c.1.component? .projection none = some j ∧
      j.data = some (c.1.fitSources c.2)

theorem IsResolved.gatheredFrom (h : IsResolved config settings t) :
    ∀ l ∈ t.walk [], ∀ k sources, l.tree.label.components.get? ⟨.projection, none⟩ = some k →
      k.data = some sources → GatheredFrom (contributors ⟨.projection, none⟩ l.tree) sources := by
  apply Tree.forall_walk_up
  intro l hl ih k sources hk hsources
  have hsettled := h.settled l hl
  obtain ⟨⟨v, kids⟩, above⟩ := l
  have hk : v.components.get? ⟨.projection, none⟩ = some k := hk
  by_cases hform : ∃ u, v.form = .unit u
  · obtain ⟨u, hu⟩ := hform
    obtain rfl : kids = [] := (hsettled.unit u hu).1
    obtain rfl : sources = v.fitSources u := hsettled.data_unit hu hk hsources
    rw [contributors_unit hu]
    constructor
    · simp
    · intro c hc
      obtain rfl := List.mem_singleton.1 hc
      exact ⟨k, hk, hsources⟩
  · have hform := not_exists.1 hform
    rw [contributors_composite hform]
    -- a child with a component is merged, and fit to what its own units gathered
    have hchild : ∀ w ∈ kids, ∀ i, w.label.components.get? ⟨.projection, none⟩ = some i →
        w.label.hasMerged ⟨.projection, none⟩ = true ∧ ∃ part, i.data = some part ∧
          GatheredFrom (contributors ⟨.projection, none⟩ w) part := by
      intro w hw i hi
      obtain ⟨hmerged, hnone⟩ := h.fit_child hl hw hk hi
      have hne : i.data ≠ none := by
        rw [Ne, hnone, hsources]
        exact Option.some_ne_none sources
      obtain ⟨part, hpart⟩ := Option.ne_none_iff_exists'.1 hne
      exact ⟨hmerged, part, hpart, ih w hw i part hi hpart⟩
    constructor
    · rw [(hsettled.fit_composite hform hk).1] at hsources
      rw [eq_flatMap_of_gatherFit hsources, presentAt_asMade, flatMap_filterMap, List.flatMap_assoc]
      refine List.flatMap_congr fun w hw => ?_
      cases hi : w.label.components.get? ⟨.projection, none⟩ with
      | none => rw [hasMerged_of_none hi]; rfl
      | some i =>
        obtain ⟨hmerged, part, hpart, hgathered⟩ := hchild w hw i hi
        rw [hmerged, if_pos rfl, ← hgathered.1]
        show [i.unmerged].flatMap (fun k => k.data.getD []) = part
        rw [List.flatMap_singleton]
        show i.data.getD [] = part
        rw [hpart]
        rfl
    · intro c hc
      obtain ⟨w, hw, hcw⟩ := List.mem_flatMap.1 hc
      cases hi : w.label.components.get? ⟨.projection, none⟩ with
      | none =>
        rw [hasMerged_of_none hi] at hcw
        exact absurd hcw List.not_mem_nil
      | some i =>
        obtain ⟨hmerged, part, hpart, hgathered⟩ := hchild w hw i hi
        rw [hmerged, if_pos rfl] at hcw
        exact hgathered.2 c hcw

end ViewTree

namespace TopLevelSpec

open ViewTree

/-- A projection that is fit, whether it was merged or not, is fit to what the units that contribute
to it gathered: unit by unit in the order of the walk, with repetitions. All of these are fit to what
they gathered. -/
theorem fit_data_eq_flatMap (settings : Settings) (t : TopLevelSpec) :
    ∀ l ∈ (t.resolved settings).walk [], ∀ k sources,
      l.tree.label.component? .projection none = some k → k.data = some sources →
        sources = ((contributors ⟨.projection, none⟩ l.tree).flatMap fun c =>
          c.1.fitSources c.2) ∧
        ∀ c ∈ contributors ⟨.projection, none⟩ l.tree,
          ∃ j, c.1.component? .projection none = some j ∧ j.data = some (c.1.fitSources c.2) :=
  (isResolved_resolved settings t).gatheredFrom

/-- A map without geometry of its own. -/
def rowsMap : UnitSpec := ⟨⟨"geoshape", .empty⟩, .empty, none⟩

/-- A map of the shapes in a field. -/
def shapesMap : UnitSpec :=
  ⟨⟨"geoshape", .empty⟩, ⟨[(.shape, .one ⟨.field "geo", some .geojson, none, .unset, .unset,
    .empty⟩)]⟩, none⟩

/-- Two maps of one name in a layer, and over it a map of shapes. -/
def nestedMaps : TopLevelSpec :=
  let bare : ViewBase := ⟨none, none, none, none⟩
  let named : ViewBase := ⟨some "m", none, none, none⟩
  ⟨.layer ⟨none, some ⟨.name "cars", none⟩, none, none⟩
    [.layer bare [.unit named rowsMap, .unit named rowsMap] .silent, .unit bare shapesMap] .silent,
    .empty, .plain⟩

/-- The source that two of the maps have in common counts twice, ahead of the shapes. -/
theorem fit_data_eq_flatMap_nestedMaps : ∃ l k,
    (nestedMaps.resolved .standard).locate? [] = some l ∧
      l.tree.label.component? .projection none = some k ∧
        k.data = some [.output "m_main", .output "m_main", .signal "layer_1_geojson_0" .empty] ∧
          [.output "m_main", .output "m_main", .signal "layer_1_geojson_0" .empty] =
            ((contributors ⟨.projection, none⟩ l.tree).flatMap fun c => c.1.fitSources c.2) := by
  have hdata : ((nestedMaps.resolved .standard).label.component? .projection none).map
      Component.data =
        some (some [.output "m_main", .output "m_main", .signal "layer_1_geojson_0" .empty]) := by
    decide +kernel
  obtain ⟨k, hk, hsources⟩ := Option.map_eq_some_iff.1 hdata
  exact ⟨⟨nestedMaps.resolved .standard, []⟩, k, rfl, hk, hsources,
    (fit_data_eq_flatMap .standard nestedMaps _ (Tree.self_mem_walk [] _) k _ hk hsources).1⟩

end TopLevelSpec

end ChartLowering
