import ChartLowering.Proofs.Names.Areas

/-
  A layer around one unit.

  A layer with one child shares all of the child's components: alone they are not in conflict with
  anything, and a layer shares everything that it says nothing about. What it makes of them is what
  the child would make in its place, and since the layer has no name either, under the same names
  (`Wraps.get?_outer`). Only the sources of a fit are still those of the child (`Component.refit`). The
  child is left with merged components (`Wraps.merged_inner`).
-/

namespace ChartLowering

/-- The component with other sources, if it is fit. -/
def Component.refit (sources : List FitSource) (k : Component) : Component :=
  { k with data := k.data.map fun _ => sources }

theorem Component.data_refit (sources : List FitSource) (k : Component) :
    (k.refit sources).data = k.data.map fun _ => sources :=
  rfl

namespace View

/-! ## Sharing one component -/

theorem gatherFit_singleton (k : Component) : gatherFit [k] = k.data := by
  unfold gatherFit
  cases hdata : k.data with
  | none => simp [hdata]
  | some sources => simp [hdata]

theorem filterKeys_filterKeys (m : Fields) (p : String → Bool) :
    (m.filterKeys p).filterKeys p = m.filterKeys p := by
  simp [OrderedMap.filterKeys, List.filter_filter]

/-- What a view makes of one child's scale or projection is what it would define itself. -/
theorem sharedComponent_define {f : Family} (hguide : f.isGuide = false) (v : View)
    (c : Option Channel) (name : String) (explicit implicit : Fields) (size : Option (List Json))
    (data : Option (List FitSource)) :
    v.sharedComponent f c (.define name explicit implicit size data)
        [.define name explicit implicit size data] =
      .define (v.componentName f c) explicit implicit size data := by
  unfold sharedComponent
  rw [gatherFit_singleton, hguide]
  simp only [Component.define, filterKeys_filterKeys]

/-- What a view makes of one child's guide is what it would define itself for its own scale. -/
theorem sharedComponent_define_guide {f : Family} (hguide : f.isGuide = true) {v : View}
    {c : Option Channel} {scale : Component} (hscale : v.component? .scale c = some scale)
    (channel : Channel) (name other : String) (explicit : Fields) :
    v.sharedComponent f c (.define name explicit (guideDefaults f channel other) none none)
        [.define name explicit (guideDefaults f channel other) none none] =
      .define (v.componentName f c) explicit (guideDefaults f channel scale.name) none none := by
  unfold sharedComponent
  rw [gatherFit_singleton, hguide, hscale]
  cases f with
  | axis => rfl
  | legend => rfl
  | scale => cases hguide
  | projection => cases hguide

theorem sharedAt?_singleton (kid v : View) (s : Slot) :
    sharedAt? [kid] v s = if v.mayShare s.family s.channel then
      (kid.liveComponent? s.family s.channel).map fun k =>
        v.sharedComponent s.family s.channel k [k]
      else none := by
  unfold sharedAt? presentAt
  cases hk : kid.liveComponent? s.family s.channel with
  | none => simp [hk, Component.reduce]
  | some k => simp [hk, Component.reduce, Component.reduceFrom]

theorem scale_mem_sharingOrder : ∀ s ∈ sharingOrder, s.family.isGuide = true →
    (⟨.scale, s.channel⟩ : Slot) ∈ sharingOrder := by
  decide

/-- A unit's scales and guides are not fit. -/
theorem map_refit_unitComponent? {config : Config} {settings : Settings} {above : List View}
    {u : UnitSpec} {f : Family} (hf : f ≠ .projection) (v : View) (c : Channel)
    (sources : List FitSource) :
    (unitComponent? config settings above u v ⟨f, some c⟩).map (Component.refit sources) =
      unitComponent? config settings above u v ⟨f, some c⟩ := by
  cases f with
  | projection => exact absurd rfl hf
  | scale =>
    show (unitScale? config v u c).map _ = unitScale? config v u c
    unfold unitScale?
    split
    · rfl
    · split <;> rfl
  | axis =>
    show (unitGuide? config v u .axis c).map _ = unitGuide? config v u .axis c
    unfold unitGuide?
    split
    · split <;> rfl
    · rfl
  | legend =>
    show (unitGuide? config v u .legend c).map _ = unitGuide? config v u .legend c
    unfold unitGuide?
    split
    · split <;> rfl
    · rfl

/-- The components of a view as it was made are live. -/
theorem liveComponent?_asMade_eq (v : View) (f : Family) (c : Option Channel) :
    v.asMade.liveComponent? f c = v.asMade.components.get? ⟨f, c⟩ := by
  unfold liveComponent? component?
  rw [get?_asMade]
  cases v.components.get? ⟨f, c⟩ <;> rfl

end View

namespace ViewTree

open View

/-- A unit that stands alone, and the same unit with a layer around it that is otherwise empty. -/
structure Wraps (config : Config) (settings : Settings) (u : UnitSpec) (v w c : View) : Prop where
  alone : IsResolved config settings (.node v [])
  layered : IsResolved config settings (.node w [.node c []])
  unit : v.form = .unit u
  outer : w.form = .layer .silent
  inner : c.form = .unit u
  name : v.name = ""
  name_outer : w.name = ""
  name_inner : c.name = layerPosition 0
  data_outer : w.data = none
  data_inner : c.data = v.data
  size_outer : ∀ d, w.explicitSize d = none
  size_inner : ∀ d, c.explicitSize d = v.explicitSize d
  sizes : SizeScoped (.node v [])
  sizes_layered : SizeScoped (.node w [.node c []])
  numbered : (Tree.node v []).Everywhere fun t => NumberedNames (t.map View.name)
  numbered_layered : (Tree.node w [.node c []]).Everywhere fun t => NumberedNames (t.map View.name)

namespace Wraps

variable {config : Config} {settings : Settings} {u : UnitSpec} {v w c : View}
  (h : Wraps config settings u v w c) {s : Slot}

include h

theorem componentName_eq (f : Family) (x : Option Channel) :
    w.componentName f x = v.componentName f x := by
  unfold componentName partName
  rw [h.name, h.name_outer]

/-! ## Sizes -/

omit h in
theorem locate?_inner : (Tree.node w [.node c []]).locate? [0] = some ⟨.node c [], [w]⟩ := rfl

theorem isSized_outer : w.isSized = true := by
  unfold isSized kind
  rw [h.outer]
  rfl

theorem sizeSignal_alone (d : Dimension) : v.sizeSignal [] d = v.partName d.name :=
  (h.sizes.seenFrom_root _).trans (assigned_sizeNames (isSized_of_unit h.unit) none d)

theorem sizeSignal_outer (d : Dimension) : w.sizeSignal [] d = v.sizeSignal [] d := by
  have houter : w.sizeSignal [] d = w.partName d.name :=
    (h.sizes_layered.seenFrom_root _).trans (assigned_sizeNames h.isSized_outer none d)
  rw [houter, h.sizeSignal_alone, partName, partName, h.name, h.name_outer]

theorem areaOf_inner : areaOf (.node w [.node c []]) [0] = [] :=
  areaOf_of_layer (p := ⟨.node w [.node c []], []⟩) rfl
    (show w.form.kind = .layer by rw [h.outer]; rfl) 0

/-- The unit in the layer draws where the unit draws by itself. -/
theorem sizeSignal_inner (d : Dimension) : c.sizeSignal [w] d = v.sizeSignal [] d := by
  obtain ⟨m, hm, -, hsize⟩ := h.sizes_layered.sizeSignal_area h.numbered_layered [0] _
    locate?_inner (isSized_of_unit h.inner)
  rw [h.areaOf_inner] at hm
  obtain rfl := Option.some.inj hm
  rw [h.sizeSignal_alone, partName, h.name, ← h.name_outer]
  exact hsize d

/-- The layer has the sizes of the unit, and the unit in it has none of its own. -/
theorem hasLiveSize (d : Dimension) : v.hasLiveSize [] d = true ∧ w.hasLiveSize [] d = true ∧
    c.hasLiveSize [w] d = false := by
  refine ⟨?_, ?_, ?_⟩
  · exact (h.sizes.hasLiveSize_iff h.numbered (a := []) rfl d).2 ⟨isSized_of_unit h.unit, rfl⟩
  · exact (h.sizes_layered.hasLiveSize_iff h.numbered_layered (a := []) rfl d).2
      ⟨h.isSized_outer, rfl⟩
  · rw [Bool.eq_false_iff]
    intro hlive
    have harea := ((h.sizes_layered.hasLiveSize_iff h.numbered_layered locate?_inner d).1 hlive).2
    rw [h.areaOf_inner] at harea
    cases harea

/-! ## What the three views have -/

theorem get?_alone (hs : s ∈ sharingOrder) :
    v.components.get? s = unitComponent? config settings [] u v s := by
  have hget := (h.alone.settled _ (Tree.self_mem_walk [] _)).get?_unit h.unit hs
  have hmade : v.asMade = v := h.alone.root.asMade_eq
  change v.asMade.components.get? s = unitComponent? config settings [] u v.asMade s at hget
  rwa [hmade] at hget

theorem get?_inner (hs : s ∈ sharingOrder) :
    c.asMade.components.get? s = unitComponent? config settings [w] u c.asMade s := by
  have hmem := Tree.child_mem_walk (Tree.self_mem_walk [] (Tree.node w [.node c []]))
    (List.mem_singleton.2 rfl)
  exact (h.layered.settled _ hmem).get?_unit h.inner hs

/-- What the layer shares is what the unit has. -/
theorem get?_shared (hs : s ∈ sharingOrder) :
    w.components.get? s = if w.mayShare s.family s.channel then
      (c.asMade.components.get? s).map fun k => w.sharedComponent s.family s.channel k [k]
      else none := by
  have hform : ∀ u, w.form ≠ .unit u := by
    intro u hu
    rw [h.outer] at hu
    cases hu
  have hget := (h.layered.settled _ (Tree.self_mem_walk [] _)).get?_composite hform hs
  have hmade : w.asMade = w := h.layered.root.asMade_eq
  change w.asMade.components.get? s = sharedAt? [c.asMade] w.asMade s at hget
  rwa [hmade, sharedAt?_singleton, liveComponent?_asMade_eq] at hget

theorem resolveMode_eq (f : Family) (channel : Channel) : w.resolveMode f channel = .shared := by
  unfold resolveMode kind
  rw [h.outer]
  cases f <;> rfl

theorem mayShare_scale (channel : Channel) : w.mayShare .scale (some channel) = true := by
  simp only [mayShare, h.resolveMode_eq]
  rfl

/-! ## What the layer has instead of the unit -/

theorem get?_scale {channel : Channel} (hs : (⟨.scale, some channel⟩ : Slot) ∈ sharingOrder) :
    w.components.get? ⟨.scale, some channel⟩ = v.components.get? ⟨.scale, some channel⟩ := by
  rw [h.get?_shared hs, if_pos (h.mayShare_scale channel), h.get?_inner hs, h.get?_alone hs]
  show (unitScale? config c.asMade u channel).map _ = unitScale? config v u channel
  unfold unitScale?
  cases u.channel? channel with
  | none => rfl
  | some d =>
    by_cases hscaled : (d.isFieldOrDatum && d.measure != some .geojson) = true
    · simp only [hscaled, if_true, Option.map_some]
      rw [sharedComponent_define rfl, h.componentName_eq]
    · simp only [hscaled, Bool.false_eq_true, if_false, Option.map_none]

/-- Where the unit in the layer has a scale, all components of its channel may be shared. -/
theorem mayShare_of_scale (f : Family) {channel : Channel}
    (hs : (⟨.scale, some channel⟩ : Slot) ∈ sharingOrder)
    (hscale : (c.asMade.components.get? ⟨.scale, some channel⟩).isSome = true) :
    w.mayShare f (some channel) = true := by
  obtain ⟨scale, hscale⟩ := Option.isSome_iff_exists.1 hscale
  have houter := h.get?_shared hs
  rw [if_pos (h.mayShare_scale channel), hscale, Option.map_some] at houter
  have hlive : (w.liveComponent? .scale (some channel)).isSome = true := by
    rw [liveComponent?_eq_some_iff.2 ⟨houter, h.layered.root.live _ _ houter⟩]
    rfl
  simp [mayShare, h.resolveMode_eq, hlive]

/-- A guide of the unit is shared, for so is the scale that it shows. -/
theorem get?_guide {f : Family} (hguide : f.isGuide = true) {channel : Channel}
    (hs : (⟨f, some channel⟩ : Slot) ∈ sharingOrder)
    (hscale : (⟨.scale, some channel⟩ : Slot) ∈ sharingOrder) :
    w.components.get? ⟨f, some channel⟩ = v.components.get? ⟨f, some channel⟩ := by
  have hguides : ∀ (above : List View) (t : View),
      unitComponent? config settings above u t ⟨f, some channel⟩ = unitGuide? config t u f channel := by
    intro above t
    cases f with
    | axis | legend => rfl
    | scale | projection => cases hguide
  rw [h.get?_shared hs, h.get?_inner hs, h.get?_alone hs, hguides, hguides]
  have houter := h.get?_scale hscale
  have hinner := h.get?_shared hscale
  rw [if_pos (h.mayShare_scale channel)] at hinner
  unfold unitGuide?
  cases hd : u.channel? channel with
  | none => simp
  | some d =>
    cases hv : v.components.get? ⟨.scale, some channel⟩ with
    | none =>
      -- there is no scale, so neither has the unit in the layer one
      rw [houter, hv] at hinner
      have hnone : c.asMade.component? .scale (some channel) = none :=
        Option.map_eq_none_iff.1 hinner.symm
      have hvnone : v.component? .scale (some channel) = none := hv
      simp [hnone, hvnone]
    | some scale =>
      rw [hv] at houter
      rw [houter] at hinner
      obtain ⟨other, hother, -⟩ := Option.map_eq_some_iff.1 hinner.symm
      have hmay := h.mayShare_of_scale f hscale (by rw [hother]; rfl)
      have hwscale : w.component? .scale (some channel) = some scale := houter
      have hvscale : v.component? .scale (some channel) = some scale := hv
      have hcscale : c.asMade.component? .scale (some channel) = some other := hother
      simp only [hmay, if_true, hvscale, hcscale]
      by_cases hoff : ((d.guide f).disables || (f == .legend && !d.hasField)) = true
      · simp only [hoff, if_true, Option.map_none]
      · simp only [hoff, Bool.false_eq_true, if_false, Option.map_some]
        rw [sharedComponent_define_guide hguide hwscale, h.componentName_eq]

theorem get?_projection : w.components.get? ⟨.projection, none⟩ =
    (v.components.get? ⟨.projection, none⟩).map (Component.refit (c.fitSources u)) := by
  have hs : (⟨.projection, none⟩ : Slot) ∈ sharingOrder := by decide
  have hsize : ∀ d, c.asMade.sizeSignal [w] d = v.sizeSignal [] d := by
    intro d
    rw [← h.sizeSignal_inner d]
    exact sizeSignal_eq rfl rfl d
  have hmay : w.mayShare .projection none = true := rfl
  rw [h.get?_shared hs, hmay, if_pos rfl, h.get?_inner hs, h.get?_alone hs]
  show (unitProjection? config settings [w] c.asMade u).map _ =
    (unitProjection? config settings [] v u).map _
  unfold unitProjection?
  by_cases hnone : (u.projection.isNone && !u.needsProjection) = true
  · rw [if_pos hnone, if_pos hnone]
    rfl
  · rw [if_neg hnone, if_neg hnone]
    simp only [Option.map_some, hsize]
    rw [sharedComponent_define rfl, h.componentName_eq]
    cases isPlaced (explicitFields config .projection (u.projection.getD .empty)) <;> rfl

/-- A layer has what the unit has, with what the unit in the layer is fit to. -/
theorem get?_outer (s : Slot) :
    w.components.get? s = (v.components.get? s).map (Component.refit (c.fitSources u)) := by
  by_cases hs : s ∈ sharingOrder
  · obtain ⟨f, channel⟩ := s
    by_cases hprojection : f = .projection
    · subst hprojection
      obtain rfl : channel = none := congrArg Slot.channel (slot_of_projection _ hs rfl)
      exact h.get?_projection
    · obtain ⟨channel, rfl⟩ := Option.ne_none_iff_exists'.1 (channel_ne_none _ hs hprojection)
      have hsame : w.components.get? ⟨f, some channel⟩ = v.components.get? ⟨f, some channel⟩ := by
        by_cases hguide : f.isGuide = true
        · exact h.get?_guide hguide hs (scale_mem_sharingOrder _ hs hguide)
        · cases f with
          | scale => exact h.get?_scale hs
          | projection => exact absurd rfl hprojection
          | axis | legend => exact absurd rfl hguide
      rw [hsame, h.get?_alone hs]
      exact (map_refit_unitComponent? hprojection _ _ _).symm
  · have hnone : v.components.get? s = none := by
      cases hk : v.components.get? s with
      | none => rfl
      | some k =>
        exact absurd ((h.alone.settled _ (Tree.self_mem_walk [] _)).mem_sharingOrder hk) hs
    rw [hnone, Option.map_none]
    cases hk : w.components.get? s with
    | none => rfl
    | some k =>
      exact absurd ((h.layered.settled _ (Tree.self_mem_walk [] _)).mem_sharingOrder hk) hs

/-- The unit in the layer has merged components only. -/
theorem merged_inner {k : Component} (hk : c.components.get? s = some k) : k.merged = true := by
  have hroot := h.layered.settled _ (Tree.self_mem_walk [] _)
  have hmem := Tree.child_mem_walk (Tree.self_mem_walk [] (Tree.node w [.node c []]))
    (List.mem_singleton.2 rfl)
  have hinner := h.layered.settled _ hmem
  have hs := hinner.mem_sharingOrder hk
  have hmade := get?_asMade_of_some hk
  rw [hroot.merged_iff (List.mem_singleton.2 rfl) hinner hk]
  show (w.components.get? s).isSome = true
  have hmay : w.mayShare s.family s.channel = true := by
    obtain ⟨f, channel⟩ := s
    by_cases hprojection : f = .projection
    · obtain rfl : channel = none := congrArg Slot.channel (slot_of_projection _ hs hprojection)
      rfl
    · obtain ⟨channel, rfl⟩ := Option.ne_none_iff_exists'.1 (channel_ne_none _ hs hprojection)
      by_cases hguide : f.isGuide = true
      · -- the unit's guide shows a scale of the unit
        rw [h.get?_inner hs] at hmade
        obtain ⟨scale, hscale, -⟩ := unitComponent?_guide hguide hmade
        exact h.mayShare_of_scale f (scale_mem_sharingOrder _ hs hguide)
          (Option.isSome_iff_exists.2 ⟨scale, hscale⟩)
      · cases f with
        | scale => exact h.mayShare_scale channel
        | projection => exact absurd rfl hprojection
        | axis | legend => exact absurd rfl hguide
  rw [h.get?_shared hs, if_pos hmay, hmade]
  rfl

end Wraps

end ViewTree

end ChartLowering
