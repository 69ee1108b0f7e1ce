import ChartLowering.Proofs.Names.Areas
import ChartLowering.Proofs.Output.FitSources
import ChartLowering.Proofs.Output.GeneratedNames

/-
  How a compile can fail.

  A compile looks many things up that need not be there: the scale type of a measure, the scale beside
  a guide, the target of a legend, the two sides of the area of a fit, the source of a derived dataset,
  the first of the sources that a fit is made of. Each of these is there because of something that
  another phase has seen to (`Lookups`). If every scale of a guide is a name, only three errors end a
  compile: an undeclared dataset, a missing fit source, and data that are nested too deeply
  (`compile_outcomes`). The last one is not among those that a caller is told of, and yet an accepted
  chart can end in it (`compile_deepFormat`).
-/

namespace ChartLowering

/-! ## The units of a specification -/

namespace ViewSpec

mutual

/-- The units of a specification in order. -/
def units : ViewSpec → List UnitSpec
  | .unit _ u => [u]
  | .layer _ children _ => unitsAll children
  | .facet _ _ child _ => units child
  | .concat _ children _ _ => unitsAll children

def unitsAll : List ViewSpec → List UnitSpec
  | [] => []
  | v :: rest => units v ++ unitsAll rest

end

end ViewSpec

/-- The unit of a view, if it is one. -/
def View.unit? (v : View) : Option UnitSpec :=
  match v.form with
  | .unit u => some u
  | _ => none

theorem View.unit?_eq_some_iff {v : View} {u : UnitSpec} : v.unit? = some u ↔ v.form = .unit u := by
  unfold View.unit?
  cases v.form <;> simp

namespace ViewTree

open View

theorem unit?_viewOf (name : String) (form : ViewForm) (base : ViewBase)
    (inherited : Option DataSpec) : (viewOf name form base inherited).unit? =
      match form with
      | .unit u => some u
      | _ => none := by
  rw [View.unit?, form_viewOf]

mutual

theorem units_build (name : String) (inherited : Option DataSpec) : ∀ spec : ViewSpec,
    (build name inherited spec).labels.filterMap View.unit? = spec.units
  | .unit base u => by
    rw [build, Tree.labels_node, List.filterMap_cons, unit?_viewOf, ViewSpec.units]
    rfl
  | .layer base children r => by
    rw [build, Tree.labels_node, List.filterMap_cons, unit?_viewOf, ViewSpec.units]
    exact units_buildAll name layerPosition _ 0 children
  | .facet base mapping child r => by
    rw [build, Tree.labels_node, List.filterMap_cons, unit?_viewOf, ViewSpec.units,
      List.flatMap_singleton]
    exact units_build _ _ child
  | .concat base children direction r => by
    rw [build, Tree.labels_node, List.filterMap_cons, unit?_viewOf, ViewSpec.units]
    exact units_buildAll name concatPosition _ 0 children

theorem units_buildAll (parent : String) (position : Nat → String) (inherited : Option DataSpec)
    (i : Nat) : ∀ specs : List ViewSpec,
      ((buildAll parent position inherited i specs).flatMap Tree.labels).filterMap View.unit? =
        ViewSpec.unitsAll specs
  | [] => by
    rw [buildAll, ViewSpec.unitsAll]
    rfl
  | child :: rest => by
    rw [buildAll, ViewSpec.unitsAll, List.flatMap_cons, List.filterMap_append, units_build,
      units_buildAll parent position inherited (i + 1) rest]

end

/-- The resolved views have the units of the specification. -/
theorem units_resolved (settings : Settings) (t : TopLevelSpec) :
    (t.resolved settings).labels.filterMap View.unit? = t.view.units := by
  have hmap : ∀ labels : List View, labels.filterMap View.unit? =
      (labels.map View.unit?).filterMap id := by
    intro labels
    rw [List.filterMap_map]
    rfl
  rw [hmap, map_labels_resolved (fun _ _ => rfl) (fun _ => rfl), ← hmap]
  exact units_build _ _ t.view

end ViewTree

/-! ## Derived datasets -/

namespace Registry

/-- The pipeline of a derived dataset has a source. -/
theorem Registered.exists_source {r₀ r : Registry} {views : List View} (h : Registered r₀ r views) :
    ∀ e ∈ r.link.derived.entries, ∃ source, e.2.source = some source := by
  rintro ⟨name, p⟩ he
  rw [derived_link h.concrete h.derived h.nodup] at he
  have hget := OrderedMap.get?_of_mem h.nodup (List.mem_filter.1 he).1
  obtain ⟨_, _, _, source, -, -, -, rfl⟩ := h.last name p hget
  exact ⟨source, rfl⟩

end Registry

namespace ViewTree

open View

variable {config : Config} {settings : Settings} {t : ViewTree} {l : Located View}

/-! ## Look-ups -/

/-- A measured unit scale is not one of geometry, so its measure has a scale type. -/
theorem Settled.exists_scaleType (h : Settled config settings l) {u : UnitSpec}
    (hform : l.tree.label.form = .unit u) {c : Channel} {d : ChannelDef} {k : Component}
    {m : Measure} (hk : l.tree.label.component? .scale (some c) = some k)
    (hd : u.channel? c = some d) (hm : d.measure = some m) :
    ∃ type, m.scaleType? c.isPositional = some type := by
  have hget := get?_asMade_of_some hk
  rw [h.get?_unit hform (h.mem_sharingOrder hk)] at hget
  change unitScale? config l.tree.label.asMade u c = some k.unmerged at hget
  unfold unitScale? at hget
  simp only [hd, hm] at hget
  cases m with
  | geojson => simp at hget
  | quantitative | temporal | ordinal | nominal => exact ⟨_, rfl⟩

/-- A guide is shared only where there is a scale beside it, whatever is shared already. -/
theorem exists_scale_of_mayShare {v : View} {s : Slot} (hs : s ∈ sharingOrder)
    (hguide : s.family.isGuide = true) (hmay : v.mayShare s.family s.channel = true) :
    ∃ scale, v.component? .scale s.channel = some scale := by
  obtain ⟨f, c⟩ := s
  have hf : f ≠ .projection := by
    rintro rfl
    cases hguide
  have hfs : f ≠ .scale := by
    rintro rfl
    cases hguide
  obtain ⟨c, rfl⟩ := Option.ne_none_iff_exists'.1 (channel_ne_none _ hs hf)
  have hlive : (v.liveComponent? .scale (some c)).isSome = true := by
    unfold mayShare at hmay
    simp only [Bool.or_eq_true, Bool.and_eq_true, beq_iff_eq, hf, hfs, false_or] at hmay
    exact hmay.2
  obtain ⟨scale, hscale⟩ := Option.isSome_iff_exists.1 hlive
  exact ⟨scale, (liveComponent?_eq_some_iff.1 hscale).1⟩

theorem channel_mem_withLegend :
    ∀ s ∈ sharingOrder, s.family = .legend → ∃ c ∈ Channel.withLegend, s.channel = some c := by
  decide

/-- What a compile looks up in its resolved tree, and where the look-up needs something to be there:
the scale type of the measure of a unit's scale; the scale of a view at which a guide is being shared,
and the one that a guide refers to in the end; the target that a legend writes its scale under; and
the signals of the two sides of an area that is filled. -/
structure Lookups (t : ViewTree) : Prop where
  scaleType : ∀ l ∈ t.walk [], ∀ u, l.tree.label.form = .unit u → ∀ c d k m,
    l.tree.label.component? .scale (some c) = some k → u.channel? c = some d →
      d.measure = some m → ∃ type, m.scaleType? c.isPositional = some type
  ownScale : ∀ (v : View), ∀ s ∈ sharingOrder, s.family.isGuide = true →
    v.mayShare s.family s.channel = true → ∃ scale, v.component? .scale s.channel = some scale
  guideScale : ∀ l ∈ t.walk [], ∀ s k, s.family.isGuide = true →
    l.tree.label.components.get? s = some k →
      ∃ scale, l.tree.label.components.get? ⟨.scale, s.channel⟩ = some scale ∧
        k.implicit.get? "scale" = some (.str scale.name)
  legendTarget : ∀ l ∈ t.walk [], ∀ c k, l.tree.label.component? .legend c = some k →
    ∃ channel ∈ Channel.withLegend, c = some channel
  fitArea : ∀ l ∈ t.walk [], ∀ k, l.tree.label.component? .projection none = some k →
    k.isFit = true → ∃ width height,
      k.size = some [Json.signalRef width, Json.signalRef height] ∧
        l.tree.label.fitArea l.above k = (width, height)

theorem IsResolved.lookups (h : IsResolved config settings t) : t.Lookups where
  scaleType := fun l hl _ hform _ _ _ _ hk hd hm =>
    (h.settled l hl).exists_scaleType hform hk hd hm
  ownScale := fun _ _ hs hguide hmay => exists_scale_of_mayShare hs hguide hmay
  guideScale := fun l hl _ _ hguide hk => (h.settled l hl).guide_scale hguide hk
  legendTarget := fun l hl c _ hk =>
    channel_mem_withLegend ⟨.legend, c⟩ ((h.settled l hl).mem_sharingOrder hk) rfl
  fitArea := by
    intro l hl k hk hfit
    have hsize : k.size ≠ none := by
      rw [Ne, ← h.data_eq_none_iff l hl _ k hk]
      exact Option.isSome_iff_ne_none.1 hfit
    obtain ⟨m, -, u, -, harea⟩ := h.exists_area l hl _ k hk hsize
    refine ⟨m.tree.label.sizeSignal m.above .width, m.tree.label.sizeSignal m.above .height,
      harea, ?_⟩
    unfold View.fitArea
    rw [harea]
    rfl

/-! ## Completing components -/

/-- A component whose guide's scale is plain is not completed only for want of a fit source. -/
theorem Settled.entry_error (h : Settled config settings l) {r : Registry} {s : Slot} {k : Component}
    {e : CompileError} (hk : l.tree.label.components.get? s = some k)
    (hplain : s.family.isGuide = true →
      ∀ x, k.explicit.get? "scale" = some x → x.isContainer = false)
    (he : l.tree.label.entry r l.above s k = .error e) :
    e = .fitSourceMissing k.name l.tree.label.name := by
  by_cases hguide : s.family.isGuide = true
  · obtain ⟨entry, hentry⟩ := h.exists_entry_of_guide hguide hk (hplain hguide)
    rw [hentry r] at he
    cases he
  · obtain ⟨f, c⟩ := s
    cases f with
    | axis => exact absurd rfl hguide
    | legend => exact absurd rfl hguide
    | scale => cases he
    | projection =>
      obtain ⟨_, -, -, herror⟩ := projectionFields_eq_error he
      exact herror

/-- Where every guide's scale is plain, a compile is missing fit sources at most. -/
theorem IsResolved.componentLists_outcomes (h : IsResolved config settings t) (r : Registry)
    (hplain : ∀ l ∈ t.walk [], ∀ s k, s.family.isGuide = true →
      l.tree.label.components.get? s = some k →
        ∀ x, k.explicit.get? "scale" = some x → x.isContainer = false) :
    (∃ lists, componentLists r (t.walk []) = .ok lists) ∨
      ∃ component view,
        componentLists r (t.walk []) = .error (.fitSourceMissing component view) := by
  rcases componentLists_ok_or_error r (t.walk []) with hok | ⟨l, hl, e, hview, he⟩
  · exact Or.inl hok
  · have hsettled := h.settled l hl
    rcases View.componentLists_ok_or_error (r := r) hsettled.nodup with
      ⟨lists, hlists⟩ | ⟨s, k, e', hk, -, hentry, herror⟩
    · rw [hlists] at hview
      cases hview
    · obtain rfl := Except.error.inj (herror.symm.trans hview)
      obtain rfl := hsettled.entry_error hk (fun hguide => hplain l hl s k hguide hk) hentry
      exact Or.inr ⟨_, _, he⟩

end ViewTree

/-! ## Explicit scales of guides -/

/-- Whether no property `scale` is a list or an object. -/
def Fields.HasPlainScale (fs : Fields) : Prop :=
  ∀ e ∈ fs.entries, e.1 = "scale" → e.2.isContainer = false

instance (fs : Fields) : Decidable fs.HasPlainScale :=
  inferInstanceAs (Decidable (∀ e ∈ fs.entries, _))

theorem Fields.HasPlainScale.overlay {m top : Fields} (hm : m.HasPlainScale)
    (htop : top.HasPlainScale) {x : Json} (hx : (m.overlay top).get? "scale" = some x) :
    x.isContainer = false := by
  rcases OrderedMap.get?_overlay_cases hx with hx | hx
  · exact hm _ (OrderedMap.mem_entries_of_get? hx) rfl
  · exact htop _ hx rfl

namespace TopLevelSpec

open ViewTree

variable {settings : Settings} {t : TopLevelSpec}

/-- Whether neither the configuration nor a channel of a unit sets a list or an object for the scale of
an axis or a legend. -/
def PlainGuideScales (t : TopLevelSpec) : Prop :=
  ∀ f : Family, f.isGuide = true → (t.config.defaults f).HasPlainScale ∧
    ∀ u ∈ t.view.units, ∀ c d, u.channel? c = some d → (d.guide f).fields.HasPlainScale

theorem hasPlainScale_given {u : UnitSpec} {s : Slot} (hguide : s.family.isGuide = true)
    (hu : ∀ c d, u.channel? c = some d → (d.guide s.family).fields.HasPlainScale) :
    (u.given s).HasPlainScale := by
  obtain ⟨f, c⟩ := s
  cases hd : c.bind u.channel? with
  | none =>
    have hempty : u.given ⟨f, c⟩ = .empty := by
      cases f with
      | projection => cases hguide
      | scale | axis | legend => simp only [UnitSpec.given, hd]
    rw [hempty]
    exact fun e he => absurd he List.not_mem_nil
  | some d =>
    obtain ⟨channel, rfl, hchannel⟩ := Option.bind_eq_some_iff.1 hd
    have hgiven : u.given ⟨f, some channel⟩ = (d.guide f).fields := by
      cases f with
      | projection => cases hguide
      | scale => cases hguide
      | axis | legend => simp only [UnitSpec.given, hd]; rfl
    rw [hgiven]
    exact hu channel d hchannel

/-- The scale that a guide's component sets is plain where the specification sets plain ones. -/
theorem PlainGuideScales.of_component (h : t.PlainGuideScales) :
    ∀ l ∈ (t.resolved settings).walk [], ∀ s k, s.family.isGuide = true →
      l.tree.label.components.get? s = some k →
        ∀ x, k.explicit.get? "scale" = some x → x.isContainer = false := by
  intro l hl s k hguide hk x hx
  obtain ⟨m, hm, u, hform, hexplicit⟩ :=
    (isResolved_resolved settings t).exists_unit_explicit l hl k hk
  have hu : u ∈ t.view.units := by
    rw [← units_resolved settings]
    exact List.mem_filterMap.2
      ⟨m.tree.label, List.mem_map.2 ⟨m, hm, rfl⟩, View.unit?_eq_some_iff.2 hform⟩
  obtain ⟨hconfig, hunits⟩ := h s.family hguide
  rw [hexplicit] at hx
  exact hconfig.overlay (hasPlainScale_given hguide (hunits u hu)) hx

/-- What ends a compile. Let no guide set a list or an object as its scale. Then a compile gives a
document, or ends at a dataset that is not declared, at a fit source that is missing, or at data that
are nested too deeply; at these if and only if, of all definitions of data, they are the first that
the compile does not take. What it looks up on the way is there: everything in the resolved tree, the
source of every derived dataset, and the first of the sources that a fit is made of. -/
theorem compile_outcomes {settings : Settings} {t : TopLevelSpec} (hscales : t.PlainGuideScales) :
    ((∃ d, t.compile settings = .ok d) ∨
      (∃ name, t.compile settings = .error (.undeclaredDataset name)) ∨
      (∃ component view, t.compile settings = .error (.fitSourceMissing component view)) ∨
      t.compile settings = .error .tooDeep) ∧
    (t.compile settings = .error .tooDeep ↔
      ∃ before b after d, t.view.bases = before ++ b :: after ∧
        (∀ c ∈ before, ∀ e, c.data = some e → t.Admits settings e) ∧
        b.data = some d ∧ d.isTooDeep = true) ∧
    (t.resolved settings).Lookups ∧
    (∀ r, t.registered settings = .ok r →
      ∀ e ∈ r.link.derived.entries, ∃ source, e.2.source = some source) ∧
    ∀ (r : Registry) (v : View) above k, v.projectionFields r above k ≠ .error .emptyFit := by
  have h := isResolved_resolved settings t
  have hadmitted : t.firstRefusal? settings = none → (∃ d, t.compile settings = .ok d) ∨
      ∃ component view, t.compile settings = .error (.fitSourceMissing component view) := by
    intro hnone
    obtain ⟨r, hr⟩ := exists_registered hnone
    rcases h.componentLists_outcomes r.link hscales.of_component with
      ⟨lists, hlists⟩ | ⟨component, view, hmissing⟩
    · exact Or.inl (exists_compile hr hlists)
    · exact Or.inr ⟨component, view, compile_eq_error hr hmissing⟩
  refine ⟨?outcomes, ?deep, h.lookups, fun r hr => (registered_eq_ok hr).exists_source, ?nonempty⟩
  case outcomes =>
    cases hrefusal : t.firstRefusal? settings with
    | none =>
      rcases hadmitted hrefusal with hok | hmissing
      · exact Or.inl hok
      · exact Or.inr (Or.inr (Or.inl hmissing))
    | some e =>
      have he := compile_of_firstRefusal hrefusal
      rcases firstRefusal?_cases hrefusal with rfl | ⟨n, rfl⟩
      · exact Or.inr (Or.inr (Or.inr he))
      · exact Or.inr (Or.inl ⟨n, he⟩)
  case deep =>
    simp only [← @DataSpec.refusal?_eq_tooDeep_iff (t.requested settings).takes,
      ← firstRefusal?_eq_some_iff]
    exact compile_eq_error_iff (e := .tooDeep) nofun fun _ _ => nofun
  case nonempty =>
    intro r v above k herror
    obtain ⟨_, -, -, hmissing⟩ := projectionFields_eq_error herror
    cases hmissing

/-- Points on an axis that is told the name of its scale. -/
def toldAxis : TopLevelSpec :=
  ⟨.unit ⟨none, some ⟨.name "cars", none⟩, none, none⟩
    ⟨⟨"point", .empty⟩, ⟨[(.x, .one ⟨.field "a", some .quantitative, none,
      .properties ⟨[("scale", .str "other")]⟩, .unset, .empty⟩)]⟩, none⟩, .empty, .plain⟩

/-- Settings that refuse datasets that are not declared. -/
def strictSettings : Settings := { Settings.standard with strictDatasets := .bool true }

/-- The dataset is not declared, which ends a strict compile; all look-ups would succeed. -/
theorem compile_outcomes_toldAxis : toldAxis.PlainGuideScales ∧
    (∃ name, toldAxis.compile strictSettings = .error (.undeclaredDataset name)) ∧
    (toldAxis.resolved strictSettings).Lookups := by
  have hscales : toldAxis.PlainGuideScales := by
    intro f hguide
    constructor
    · cases f <;> decide
    · intro u hu c d hd
      obtain rfl := List.mem_singleton.1 hu
      -- the unit has but one channel
      cases c <;> cases hd
      cases f <;> decide
  have herror : toldAxis.compile strictSettings = .error (.undeclaredDataset "cars") :=
    (map_eq_error_iff fun _ => ()).1 (by decide +kernel)
  obtain ⟨houtcomes, -, hlookups, -⟩ := @compile_outcomes strictSettings _ hscales
  refine ⟨hscales, ?_, hlookups⟩
  rcases houtcomes with ⟨d, hd⟩ | hundeclared | ⟨component, view, hmissing⟩ | hdeep
  · cases hd.symm.trans herror
  · exact hundeclared
  · cases hmissing.symm.trans herror
  · cases hdeep.symm.trans herror

/-- Points over fetched data, with a format of many nested lists. -/
def deepFormat : TopLevelSpec :=
  ⟨.unit ⟨none, some ⟨.url "a.csv", some ⟨[("a", nestedLists 300)]⟩⟩, none, none⟩
    ⟨⟨"point", .empty⟩, .empty, none⟩, .empty, .plain⟩

theorem accepted_deepFormat : deepFormat.Accepted := by
  refine ⟨.obj [("mark", .str "point"), ("data", .obj [("url", .str "a.csv"),
    ("format", .obj [("a", nestedLists 300)])])], ?_, rfl⟩
  simp [Json.distinctKeys, Json.distinctKeysFields, distinctKeys_nestedLists]

/-- An accepted chart without any guide ends in neither of the two errors, nor in a document. -/
theorem compile_deepFormat : deepFormat.Accepted ∧ deepFormat.PlainGuideScales ∧
    deepFormat.compile .standard = .error .tooDeep := by
  refine ⟨accepted_deepFormat, ?_, ?_⟩
  · intro f hguide
    constructor
    · cases f <;> decide
    · intro u hu c d hd
      obtain rfl := List.mem_singleton.1 hu
      cases hd
  · exact (map_eq_error_iff fun _ => ()).1 (by decide +kernel)

end TopLevelSpec

end ChartLowering
