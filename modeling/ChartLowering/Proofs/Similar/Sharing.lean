import ChartLowering.Proofs.Sharing.Resolved
import ChartLowering.Proofs.Similar.Sketch
import ChartLowering.Proofs.Tree.Lockstep

/-
  Trees with one sketch.

  Building, laying out and resolving read of a view what its sketch keeps. A composite shares among
  sketched children the sketch of what it shares among the children (`resolveComposite_sketch`); a
  unit puts what it sets over what is configured, so of two units with one sketch the components have
  one sketch (`resolveUnit_alike`). Both together say that trees with one sketch are resolved to
  trees with one sketch (`resolve_alike`).
-/

namespace ChartLowering

variable {p : Place}

/-! ## Merging sketched components -/

namespace Json

theorem sameOption_arranged (p : Place) (a b : Option Json) :
    sameOption (a.map (arranged p)) (b.map (arranged p)) = sameOption a b := by
  cases a with
  | none => cases b <;> rfl
  | some x => cases b with
    | none => rfl
    | some y => exact same_arranged p p x y

end Json

namespace Component

variable {properties : List String}

theorem agreeOn_arranged (hp : p.IsUniform) (a b : Fields) :
    agreeOn properties (a.arranged p) (b.arranged p) = agreeOn properties a b := by
  unfold agreeOn
  simp only [Fields.get?_arranged hp, Json.sameOption_arranged]

theorem merge?_sketch (hp : p.IsUniform) (a b : Component) :
    merge? properties (a.sketch p) (b.sketch p) = merge? properties a b := by
  unfold merge?
  have hsize : sameSize (a.sketch p) (b.sketch p) = sameSize a b := rfl
  have hagree : agreeOn properties (a.sketch p).explicit (b.sketch p).explicit =
      agreeOn properties a.explicit b.explicit := agreeOn_arranged hp _ _
  have hempty : ∀ k : Component, (k.sketch p).explicit.isEmpty = k.explicit.isEmpty := fun k =>
    Fields.isEmpty_arranged p k.explicit
  rw [hsize, hagree, hempty, hempty]

theorem reduce_sketch (hp : p.IsUniform) (items : List Component) :
    reduce id properties (items.map (sketch p)) = (reduce id properties items).map (sketch p) :=
  @reduce_map properties _ id _ (sketch p) id (merge?_sketch hp) items

end Component

/-! ## Composites -/

namespace View

variable (v : View)

theorem resolveMode_sketch (f : Family) (c : Channel) :
    (v.sketch p).resolveMode f c = v.resolveMode f c := by
  unfold resolveMode
  rw [kind_sketch]
  show (((v.form.sketch p).resolve.mode? f c).or ((v.form.sketch p).resolve.mode? .scale c)).getD _ = _
  rw [ViewForm.resolve_sketch, ViewForm.resolve_sketch]

theorem mayShare_sketch (f : Family) (c : Option Channel) :
    (v.sketch p).mayShare f c = v.mayShare f c := by
  unfold mayShare
  cases c with
  | none => rfl
  | some c => simp only [resolveMode_sketch, liveComponent?_sketch, Option.isSome_map]

theorem gatherFit_sketch (present : List Component) :
    gatherFit (present.map (Component.sketch p)) = gatherFit present := by
  unfold gatherFit
  rw [List.filterMap_map]
  rfl

theorem sharedComponent_sketch (f : Family) (c : Option Channel) (r : Component)
    (present : List Component) :
    (v.sketch p).sharedComponent f c (r.sketch p) (present.map (Component.sketch p)) =
      (v.sharedComponent f c r present).sketch p := by
  unfold sharedComponent
  rw [gatherFit_sketch, component?_sketch]
  cases f.isGuide with
  | false => rfl
  | true => cases v.component? .scale c <;> rfl

theorem handOver_sketch (f : Family) (c : Option Channel) (name : String) :
    handOver f c name (v.sketch p) = (handOver f c name v).sketch p := by
  unfold handOver
  rw [liveComponent?_sketch]
  cases v.liveComponent? f c with
  | none => rfl
  | some k =>
    simp only [Option.map_some]
    rw [putComponent_sketch]
    cases f <;> rfl

theorem adopt_sketch (f : Family) (c : Option Channel) (k : Component) :
    (v.sketch p).adopt f c (k.sketch p) = (v.adopt f c k).sketch p := by
  unfold adopt
  cases f.nameKind? with
  | none => exact (v.putComponent_sketch f c k).symm
  | some kind => exact ((v.seed kind k.name).putComponent_sketch f c k).symm

/-- A composite and its children as they are sketched. -/
def sketchAll (p : Place) (state : View × List View) : View × List View :=
  (state.1.sketch p, state.2.map (sketch p))

theorem shareSlot_sketch (hp : p.IsUniform) (state : View × List View) (s : Slot) :
    shareSlot (sketchAll p state) s = sketchAll p (shareSlot state s) := by
  obtain ⟨v, kids⟩ := state
  have hpresent : (kids.map (sketch p)).filterMap (fun w => w.liveComponent? s.family s.channel) =
      (kids.filterMap fun w => w.liveComponent? s.family s.channel).map (Component.sketch p) := by
    rw [List.filterMap_map, List.map_filterMap]
    exact List.filterMap_congr fun w _ => w.liveComponent?_sketch s.family s.channel
  unfold shareSlot sketchAll
  simp only [mayShare_sketch, hpresent]
  split
  · rw [Component.reduce_sketch hp]
    cases Component.reduce id s.family.properties
        (kids.filterMap fun w => w.liveComponent? s.family s.channel) with
    | conflict => rfl
    | nothing => rfl
    | kept r =>
      simp only [Component.Reduction.map, sharedComponent_sketch, adopt_sketch, List.map_map]
      congr 1
      exact List.map_congr_left fun w _ => w.handOver_sketch _ _ _
  · rfl

/-- What a composite shares among sketched children is the sketch of what it shares. -/
theorem resolveComposite_sketch (hp : p.IsUniform) (kids : List View) :
    (v.sketch p).resolveComposite (kids.map (sketch p)) = sketchAll p (v.resolveComposite kids) := by
  unfold resolveComposite
  generalize sharingOrder = slots
  show slots.foldl shareSlot (sketchAll p (v, kids)) = _
  exact List.foldl_hom (sketchAll p) (shareSlot_sketch hp)

end View

/-! ## Units -/

/-- Two optional parts with one image are both absent, or both there with one image. -/
theorem cases_of_map_eq_map {α β γ : Type} {f : α → γ} {g : β → γ} {a : Option α} {b : Option β}
    (h : a.map f = b.map g) :
    a = none ∧ b = none ∨ ∃ x y, a = some x ∧ b = some y ∧ f x = g y := by
  cases a with
  | none => cases b with
    | none => exact .inl ⟨rfl, rfl⟩
    | some y => cases h
  | some x => cases b with
    | none => cases h
    | some y => exact .inr ⟨x, y, rfl, rfl, Option.some.inj h⟩

namespace View

variable {config config' : Config} {u u' : UnitSpec} {v w : View} {above above' : List View}
  {settings : Settings}

theorem componentName_eq_of_sketch_eq (h : v.sketch p = w.sketch p) (f : Family)
    (c : Option Channel) : v.componentName f c = w.componentName f c := by
  unfold componentName partName
  rw [name_eq h]

theorem sizeSignal_eq_of_sketch_eq (h : v.sketch p = w.sketch p)
    (habove : above.map (sketch p) = above'.map (sketch p)) (d : Dimension) :
    v.sizeSignal above d = w.sizeSignal above' d := by
  rw [← v.sizeSignal_sketch above, h, habove, sizeSignal_sketch]

/-- What is configured with what is given over it, if both are alike. -/
theorem explicitFields_alike (hp : p.IsUniform) (hconfig : config.sketch p = config'.sketch p)
    (f : Family) {given given' : Fields} (h : given.arranged p = given'.arranged p) :
    (explicitFields config f given).arranged p = (explicitFields config' f given').arranged p := by
  have hdefaults : (config.defaults f).arranged p = (config'.defaults f).arranged p := by
    rw [← Config.defaults_sketch, hconfig, Config.defaults_sketch]
  exact Fields.arranged_overlay hp hdefaults h

/-- The definitions that two units with one sketch have of a channel. -/
theorem channel?_alike (hu : u.sketch p = u'.sketch p) (c : Channel) :
    (u.channel? c).map (ChannelDef.sketch p) = (u'.channel? c).map (ChannelDef.sketch p) := by
  rw [← UnitSpec.channel?_sketch, hu, UnitSpec.channel?_sketch]

/-- Absent properties count as empty ones. -/
theorem getD_alike {a b : Option Fields}
    (h : a.map (Fields.arranged p) = b.map (Fields.arranged p)) :
    (a.getD .empty).arranged p = (b.getD .empty).arranged p := by
  rcases cases_of_map_eq_map h with ⟨rfl, rfl⟩ | ⟨x, y, rfl, rfl, hxy⟩
  · rfl
  · exact hxy

theorem unitScale?_alike (hp : p.IsUniform) (hconfig : config.sketch p = config'.sketch p)
    (hu : u.sketch p = u'.sketch p) (h : v.sketch p = w.sketch p) (c : Channel) :
    (unitScale? config v u c).map (Component.sketch p) =
      (unitScale? config' w u' c).map (Component.sketch p) := by
  unfold unitScale?
  rcases cases_of_map_eq_map (channel?_alike hu c) with ⟨hd, hd'⟩ | ⟨d, d', hd, hd', hsketch⟩
  · rw [hd, hd']
  · have hcontent : d.content = d'.content := ChannelDef.content_eq hsketch
    have hmeasure : d.measure = d'.measure := ChannelDef.measure_eq hsketch
    have hpresent : d.isFieldOrDatum = d'.isFieldOrDatum := by
      unfold ChannelDef.isFieldOrDatum ChannelDef.hasField ChannelDef.hasDatum ChannelDef.field?
      rw [hcontent]
    have hdefaults : scaleDefaults c d = scaleDefaults c d' := by
      unfold scaleDefaults
      rw [hmeasure]
    have hexplicit := explicitFields_alike hp hconfig .scale
      (getD_alike (congrArg ChannelDef.scale hsketch))
    rw [hd, hd']
    simp only [hpresent, hmeasure, hdefaults, componentName_eq_of_sketch_eq h]
    split
    · simp only [Option.map_some, Component.sketch, Component.define, hexplicit]
    · rfl

theorem unitGuide?_alike (hp : p.IsUniform) (hconfig : config.sketch p = config'.sketch p)
    (hu : u.sketch p = u'.sketch p) (h : v.sketch p = w.sketch p) (f : Family) (c : Channel) :
    (unitGuide? config v u f c).map (Component.sketch p) =
      (unitGuide? config' w u' f c).map (Component.sketch p) := by
  have hscale : (v.component? .scale (some c)).map (Component.sketch p) =
      (w.component? .scale (some c)).map (Component.sketch p) := by
    rw [← component?_sketch, h, component?_sketch]
  unfold unitGuide?
  rcases cases_of_map_eq_map (channel?_alike hu c) with ⟨hd, hd'⟩ | ⟨d, d', hd, hd', hsketch⟩
  · rw [hd, hd']
  rcases cases_of_map_eq_map hscale with ⟨hk, hk'⟩ | ⟨k, k', hk, hk', hkk'⟩
  · rw [hd, hd', hk, hk']
  · have hname : k.name = k'.name := Component.name_eq hkk'
    have hguide : (d.guide f).sketch p = (d'.guide f).sketch p := by
      rw [← ChannelDef.guide_sketch, hsketch, ChannelDef.guide_sketch]
    have hoff : (d.guide f).disables = (d'.guide f).disables := by
      rw [← GuideSetting.disables_sketch, hguide, GuideSetting.disables_sketch]
    have hfield : d.hasField = d'.hasField := by
      unfold ChannelDef.hasField ChannelDef.field?
      rw [show d.content = d'.content from ChannelDef.content_eq hsketch]
    have hfields : (d.guide f).fields.arranged p = (d'.guide f).fields.arranged p := by
      rw [← GuideSetting.fields_sketch, hguide, GuideSetting.fields_sketch]
    have hexplicit := explicitFields_alike hp hconfig f hfields
    rw [hd, hd', hk, hk']
    simp only [hoff, hfield, hname, componentName_eq_of_sketch_eq h]
    split
    · rfl
    · simp only [Option.map_some, Component.sketch, Component.define, hexplicit]

theorem geometryRoles_alike (hu : u.sketch p = u'.sketch p) : u.geometryRoles = u'.geometryRoles := by
  rw [← u.geometryRoles_sketch (p := p), hu, UnitSpec.geometryRoles_sketch]

theorem unitProjection?_alike (hp : p.IsUniform) (hconfig : config.sketch p = config'.sketch p)
    (hu : u.sketch p = u'.sketch p) (h : v.sketch p = w.sketch p)
    (habove : above.map (sketch p) = above'.map (sketch p)) :
    (unitProjection? config settings above v u).map (Component.sketch p) =
      (unitProjection? config' settings above' w u').map (Component.sketch p) := by
  have hgiven : u.projection.map (Fields.arranged p) = u'.projection.map (Fields.arranged p) :=
    congrArg UnitSpec.projection hu
  have hnone : u.projection.isNone = u'.projection.isNone := by
    rw [← Option.isNone_map, hgiven, Option.isNone_map]
  have hneeds : u.needsProjection = u'.needsProjection := by
    rw [← u.needsProjection_sketch (p := p), hu, UnitSpec.needsProjection_sketch]
  have hexplicit := explicitFields_alike hp hconfig .projection (getD_alike hgiven)
  have hplaced : isPlaced (explicitFields config .projection (u.projection.getD .empty)) =
      isPlaced (explicitFields config' .projection (u'.projection.getD .empty)) := by
    unfold isPlaced
    rw [← Fields.contains_arranged p, hexplicit, Fields.contains_arranged,
      ← Fields.contains_arranged p _ "translate", hexplicit, Fields.contains_arranged]
  have hfit : v.fitSources u = w.fitSources u' := by
    unfold fitSources partName
    rw [geometryRoles_alike hu, name_eq h]
  unfold unitProjection?
  rw [hnone, hneeds]
  split
  · rfl
  · simp only [Option.map_some, Component.sketch, Component.define, hexplicit, hplaced, hfit,
      componentName_eq_of_sketch_eq h, sizeSignal_eq_of_sketch_eq h habove]

/-- Two views with one sketch have one when they are given components with one sketch. -/
theorem putComponent_alike (h : v.sketch p = w.sketch p) {k k' : Component}
    (hk : k.sketch p = k'.sketch p) (f : Family) (c : Option Channel) :
    (v.putComponent f c k).sketch p = (w.putComponent f c k').sketch p := by
  rw [putComponent_sketch, putComponent_sketch, h, hk]

theorem seed_alike (h : v.sketch p = w.sketch p) (kind : NameKind) {name name' : String}
    (hname : name = name') : (v.seed kind name).sketch p = (w.seed kind name').sketch p := by
  subst hname
  exact congrArg (fun x : View => x.seed kind name) h

theorem addScale_alike (hp : p.IsUniform) (hconfig : config.sketch p = config'.sketch p)
    (hu : u.sketch p = u'.sketch p) (h : v.sketch p = w.sketch p) (c : Channel) :
    (addScale config u v c).sketch p = (addScale config' u' w c).sketch p := by
  unfold addScale
  rcases cases_of_map_eq_map (unitScale?_alike hp hconfig hu h c) with
    ⟨hk, hk'⟩ | ⟨k, k', hk, hk', hkk'⟩
  · rw [hk, hk']
    exact h
  · rw [hk, hk']
    exact seed_alike (putComponent_alike h hkk' _ _) _ (Component.name_eq hkk')

theorem addGuide_alike (hp : p.IsUniform) (hconfig : config.sketch p = config'.sketch p)
    (hu : u.sketch p = u'.sketch p) (f : Family) (h : v.sketch p = w.sketch p) (c : Channel) :
    (addGuide config u f v c).sketch p = (addGuide config' u' f w c).sketch p := by
  unfold addGuide
  rcases cases_of_map_eq_map (unitGuide?_alike hp hconfig hu h f c) with
    ⟨hk, hk'⟩ | ⟨k, k', hk, hk', hkk'⟩
  · rw [hk, hk']
    exact h
  · rw [hk, hk']
    exact putComponent_alike h hkk' _ _

/-- Units with one sketch are resolved to units with one sketch. -/
theorem resolveUnit_alike (hp : p.IsUniform) (hconfig : config.sketch p = config'.sketch p)
    (hu : u.sketch p = u'.sketch p) (h : v.sketch p = w.sketch p)
    (habove : above.map (sketch p) = above'.map (sketch p)) :
    (v.resolveUnit config settings above u).sketch p =
      (w.resolveUnit config' settings above' u').sketch p := by
  have hscales : (Channel.scaled.foldl (addScale config u) v).sketch p =
      (Channel.scaled.foldl (addScale config' u') w).sketch p :=
    List.foldl_rel (r := fun x y : View => x.sketch p = y.sketch p) h fun c _ _ _ hxy =>
      addScale_alike hp hconfig hu hxy c
  have hguides : ∀ (f : Family) (channels : List Channel) {x y : View}, x.sketch p = y.sketch p →
      (channels.foldl (addGuide config u f) x).sketch p =
        (channels.foldl (addGuide config' u' f) y).sketch p := fun f channels _ _ hxy =>
    List.foldl_rel (r := fun x y : View => x.sketch p = y.sketch p) hxy fun c _ _ _ hxy =>
      addGuide_alike hp hconfig hu f hxy c
  have hready := hguides .legend Channel.withLegend (hguides .axis Channel.withAxis hscales)
  unfold resolveUnit addProjection
  rcases cases_of_map_eq_map (@unitProjection?_alike _ _ _ _ _ _ _ _ _ settings hp hconfig hu
    hready habove) with ⟨hk, hk'⟩ | ⟨k, k', hk, hk', hkk'⟩
  · simp only [hk, hk']
    exact hready
  · simp only [hk, hk']
    exact seed_alike (putComponent_alike hready hkk' _ _) _ (Component.name_eq hkk')

end View

/-! ## Trees -/

namespace ViewTree

open View

variable {config config' : Config} {settings : Settings} {above above' : List View}

/-- Forms with one sketch are both units, or neither is. -/
theorem form_cases {a b : ViewForm} (h : a.sketch p = b.sketch p) :
    (∃ u u', a = .unit u ∧ b = .unit u' ∧ u.sketch p = u'.sketch p) ∨
      (∀ u, a ≠ .unit u) ∧ ∀ u, b ≠ .unit u := by
  cases a with
  | unit u =>
    cases b with
    | unit u' => exact .inl ⟨u, u', rfl, rfl, ViewForm.unit.inj h⟩
    | layer _ | facet _ _ | concat _ => cases h
  | layer _ | facet _ _ | concat _ =>
    cases b with
    | unit u' => cases h
    | layer _ | facet _ _ | concat _ => exact .inr ⟨nofun, nofun⟩

theorem setLabels_sketch (ts : List ViewTree) (vs : List View) :
    (setLabels ts vs).map (Tree.map (sketch p)) =
      setLabels (ts.map (Tree.map (sketch p))) (vs.map (sketch p)) := by
  fun_induction setLabels ts vs with
  | case1 t ts v vs ih =>
    rw [List.map_cons, List.map_cons, List.map_cons, setLabels, ih, Tree.setLabel, Tree.map_node,
      Tree.setLabel, Tree.children_map]
  | case2 ts => cases ts <;> rfl
  | case3 vs hne =>
    cases vs with
    | nil => exact absurd rfl hne
    | cons v vs => rfl

/-- The step of a composite view. -/
theorem resolveNode_composite {v : View} (h : ∀ u, v.form ≠ .unit u) (kids : List ViewTree) :
    resolveNode config settings above v kids =
      .node (v.resolveComposite (kids.map Tree.label)).1
        (setLabels kids (v.resolveComposite (kids.map Tree.label)).2) := by
  unfold resolveNode
  split
  · rename_i u hu
    exact absurd hu (h u)
  · generalize v.resolveComposite (kids.map Tree.label) = shared
    rfl

theorem resolveNode_alike (hp : p.IsUniform) (hconfig : config.sketch p = config'.sketch p)
    {v w : View} (h : v.sketch p = w.sketch p)
    (habove : above.map (sketch p) = above'.map (sketch p)) {kids kids' : List ViewTree}
    (hkids : kids.map (Tree.map (sketch p)) = kids'.map (Tree.map (sketch p))) :
    (resolveNode config settings above v kids).map (sketch p) =
      (resolveNode config' settings above' w kids').map (sketch p) := by
  have hform : v.form.sketch p = w.form.sketch p := (View.mk.inj h).2.1
  rcases form_cases hform with ⟨u, u', hv, hw, hu⟩ | ⟨hv, hw⟩
  · unfold resolveNode
    rw [hv, hw]
    simp only
    rw [Tree.map_node, Tree.map_node, hkids, resolveUnit_alike hp hconfig hu h habove]
  · have hlabels : ∀ ts : List ViewTree, (ts.map Tree.label).map (sketch p) =
        (ts.map (Tree.map (sketch p))).map Tree.label := by
      intro ts
      rw [List.map_map, List.map_map]
      exact List.map_congr_left fun t _ => (Tree.label_map (sketch p) t).symm
    have hshared : sketchAll p (v.resolveComposite (kids.map Tree.label)) =
        sketchAll p (w.resolveComposite (kids'.map Tree.label)) := by
      rw [← resolveComposite_sketch v hp, ← resolveComposite_sketch w hp, h, hlabels, hlabels, hkids]
    rw [resolveNode_composite hv, resolveNode_composite hw, Tree.map_node, Tree.map_node,
      setLabels_sketch, setLabels_sketch, hkids]
    generalize v.resolveComposite (kids.map Tree.label) = shared,
      w.resolveComposite (kids'.map Tree.label) = shared' at hshared ⊢
    obtain ⟨hview, hkids⟩ := Prod.mk.inj hshared
    rw [hview, hkids]

/-- Trees with one sketch are resolved to trees with one sketch. -/
theorem resolve_alike (hp : p.IsUniform) (hconfig : config.sketch p = config'.sketch p)
    {t u : ViewTree} (h : t.map (sketch p) = u.map (sketch p))
    (habove : above.map (sketch p) = above'.map (sketch p)) :
    (t.resolve config settings above).map (sketch p) =
      (u.resolve config' settings above').map (sketch p) := by
  induction t using Tree.induction generalizing u above above' with
  | step v kids ih =>
    obtain ⟨w, others⟩ := u
    have hlabel : v.sketch p = w.sketch p := by
      rw [Tree.map_node, Tree.map_node] at h
      exact (Tree.node.inj h).1
    rw [resolve, resolve, resolveAll_eq_map, resolveAll_eq_map]
    refine resolveNode_alike hp hconfig hlabel habove ?_
    rw [List.map_map, List.map_map]
    refine map_eq_map_of_getElem? (Tree.length_children_of_map_eq h) ?_
    intro i k j hk hj
    refine ih k (List.mem_of_getElem? hk) (Tree.children_of_map_eq h hk hj) ?_
    rw [List.map_cons, List.map_cons, hlabel, habove]

theorem layoutChild_sketch (parent child : View) :
    layoutChild (parent.sketch p) (child.sketch p) = (layoutChild parent child).sketch p := by
  unfold layoutChild shareSize
  rw [kind_sketch, isSized_sketch]
  split
  · split <;> rfl
  · rfl

/-- The layout of a sketched tree is the sketch of its layout. -/
theorem layoutBelow_sketch (parent : Option View) (t : ViewTree) :
    (layoutBelow parent t).map (sketch p) =
      layoutBelow (parent.map (sketch p)) (t.map (sketch p)) := by
  induction t using Tree.induction generalizing parent with
  | step v kids ih =>
    rw [layoutBelow, Tree.map_node, Tree.map_node, layoutBelow, layoutAll_eq_map, layoutAll_eq_map,
      List.map_map, List.map_map]
    congr 1
    · cases parent with
      | none => rfl
      | some a => exact (layoutChild_sketch a v).symm
    · exact List.map_congr_left fun t ht => ih t ht (some v)

theorem layout_alike {t u : ViewTree} (h : t.map (sketch p) = u.map (sketch p)) :
    t.layout.map (sketch p) = u.layout.map (sketch p) := by
  unfold layout
  rw [layoutBelow_sketch, layoutBelow_sketch, h]

end ViewTree

end ChartLowering
