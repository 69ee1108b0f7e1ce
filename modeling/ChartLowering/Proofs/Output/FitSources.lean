import ChartLowering.Proofs.Dataset.Backing
import ChartLowering.Proofs.Dataset.Separation
import ChartLowering.Proofs.Output.References
import ChartLowering.Proofs.Sharing.Contributors

/-
  When a projection has nothing to be fit to.

  A unit gathers the sources of a fit before any pipeline exists, by names alone. If no two views
  have their main outputs under one name, a source of a unit is backed exactly if the unit has data
  (`fitSources_unbacked_iff`): the output of that name is its own, and the names of geometry signals
  tell units apart as far as those of outputs do. A live projection is therefore without a fit if and
  only if none of the units that contribute to it has data (`Unbacked`).

  A compile refuses data before it completes any component (`compile_eq_error_cases`). A lenient one
  refuses only those that are nested too deeply; if there are none, it ends at the first projection in
  the order of the walk that nothing backs, and nowhere else (`fit_source_missing_iff`).
-/

namespace ChartLowering

/-- Among the members of a list with a property there is a first one. -/
theorem exists_first {α : Type} {P : α → Prop} {l : List α} (h : ∃ a ∈ l, P a) :
    ∃ before a after, l = before ++ a :: after ∧ P a ∧ ∀ b ∈ before, ¬ P b := by
  classical
  obtain ⟨c, hc, hP⟩ := h
  have hsome : (l.find? fun a => decide (P a)).isSome = true :=
    List.find?_isSome.2 ⟨c, hc, decide_eq_true hP⟩
  obtain ⟨a, ha⟩ := Option.isSome_iff_exists.1 hsome
  obtain ⟨hPa, before, after, hl, hbefore⟩ := List.find?_eq_some_iff_append.1 ha
  refine ⟨before, a, after, hl, of_decide_eq_true hPa, fun b hb => ?_⟩
  simpa using hbefore b hb

namespace Registry

variable {r : Registry} {views : List View}

/-! ## Backed sources -/

section Units

variable (hr : r.BacksViews views) (hdistinct : (views.map View.mainOutput).Nodup) {v : View}
  (hv : v ∈ views) {u : UnitSpec}

include hr hdistinct hv

/-- The output of a unit is backed if and only if the unit has data. -/
theorem backs_mainOutput_iff (hform : v.form = .unit u) :
    r.backs v.mainOutput = true ↔ v.data ≠ none := by
  rw [hr.backs]
  constructor
  · rintro ⟨w, hw, houtput, hname⟩
    rw [List.inj_on_of_nodup_map hdistinct hw hv hname] at houtput
    exact Option.isSome_iff_ne_none.1 (Bool.and_eq_true_iff.1 houtput).1
  · intro hdata
    refine ⟨v, hv, ?_, rfl⟩
    rw [View.hasOutput, View.kind, hform, Option.isSome_iff_ne_none.2 hdata]
    rfl

/-- A geometry signal that is extracted has the name of one of a view with data. -/
theorem data_of_produces {i : Nat} (hi : i < 3)
    (hproduced : r.produces (v.partName (geometrySuffix i)) = true) : v.data ≠ none := by
  obtain ⟨w, hw, hextracted⟩ := (hr.produces _).1 hproduced
  obtain ⟨hwdata, j, hj, hname⟩ := View.mem_extracted hextracted
  rwa [List.inj_on_of_nodup_map hdistinct hw hv (View.mainOutput_eq_of_signal_eq hj hi hname)]
    at hwdata

/-- None of the sources of a unit with a fit is backed if and only if the unit has no data. -/
theorem fitSources_unbacked_iff (hform : v.form = .unit u) {k : Component}
    (hk : v.component? .projection none = some k) (hfit : k.isFit = true) :
    (∀ s ∈ v.fitSources u, r.fitExpression? s = none) ↔ v.data = none := by
  unfold View.fitSources
  cases hroles : u.geometryRoles with
  | nil =>
    show (∀ s ∈ [FitSource.output v.mainOutput], r.fitExpression? s = none) ↔ _
    rw [List.forall_mem_singleton, fitExpression?_output,
      backs_mainOutput_iff hr hdistinct hv hform, not_not]
  | cons role rest =>
    constructor
    · intro hnone
      by_contra hdata
      obtain ⟨d, hd⟩ := Option.ne_none_iff_exists'.1 hdata
      -- the first signal is extracted from the data of the unit
      have hextracted : v.partName (geometrySuffix 0) ∈ v.extracted := by
        unfold View.extracted
        rw [hform, hd, hk]
        simp [hfit, hroles]
      refine fitExpression?_signal.1 (hnone (.signal (v.partName (geometrySuffix 0)) .empty) ?_)
        ((hr.produces _).2 ⟨v, hv, hextracted⟩)
      simp
    · intro hdata s hs
      obtain ⟨⟨role', i⟩, hmem, rfl⟩ := List.mem_map.1 hs
      have hi := List.snd_lt_of_mem_zipIdx hmem
      have hlength := u.length_geometryRoles_le
      rw [hroles] at hlength
      refine fitExpression?_signal.2 fun hproduced => ?_
      exact data_of_produces hr hdistinct hv (by omega) hproduced hdata

end Units

end Registry

namespace ViewTree

open View

variable {config : Config} {settings : Settings} {t : ViewTree} {r : Registry}

theorem mem_contributors {s : Slot} {l : Located View} (hl : l ∈ t.walk []) {c : View × UnitSpec}
    (hc : c ∈ contributors s l.tree) : c.1 ∈ t.labels ∧ c.1.form = .unit c.2 := by
  obtain ⟨m, hm, hcontributor⟩ := List.mem_filterMap.1 hc
  unfold contributor? at hcontributor
  split at hcontributor
  · rename_i u hform
    split at hcontributor
    · obtain rfl := Option.some.inj hcontributor
      exact ⟨Tree.labels_subset hl hm, hform⟩
    · cases hcontributor
  · cases hcontributor

/-- A live projection that is fit, while none of the units that contribute to it has data. -/
structure Unbacked (l : Located View) (k : Component) : Prop where
  component : l.tree.label.component? .projection none = some k
  live : k.merged = false
  fit : k.isFit = true
  dataless : ∀ c ∈ contributors ⟨.projection, none⟩ l.tree, c.1.data = none

/-- A projection has no fit expression if and only if no unit that contributes to it has data. -/
theorem IsResolved.fitExpressions_eq_nil_iff (h : IsResolved config settings t)
    (hr : r.BacksViews t.labels) (hdistinct : (t.labels.map View.mainOutput).Nodup)
    {l : Located View} (hl : l ∈ t.walk []) {k : Component} {sources : List FitSource}
    (hk : l.tree.label.component? .projection none = some k) (hsources : k.data = some sources) :
    r.fitExpressions sources = [] ↔
      ∀ c ∈ contributors ⟨.projection, none⟩ l.tree, c.1.data = none := by
  obtain ⟨hgathered, hfit⟩ := h.gatheredFrom l hl k sources hk hsources
  have hone : ∀ c ∈ contributors ⟨.projection, none⟩ l.tree,
      (∀ s ∈ c.1.fitSources c.2, r.fitExpression? s = none) ↔ c.1.data = none := by
    intro c hc
    obtain ⟨hmem, hform⟩ := mem_contributors hl hc
    obtain ⟨j, hj, hdata⟩ := hfit c hc
    exact Registry.fitSources_unbacked_iff hr hdistinct hmem hform hj (Component.isFit_of_data hdata)
  rw [Registry.fitExpressions_eq_nil_iff, hgathered]
  constructor
  · intro hnone c hc
    exact (hone c hc).1 fun s hs => hnone s (List.mem_flatMap.2 ⟨c, hc, hs⟩)
  · intro hnone s hs
    obtain ⟨c, hc, hs⟩ := List.mem_flatMap.1 hs
    exact (hone c hc).2 (hnone c hc) s hs

/-- A projection is not completed only where it is to be fit and nothing backs the fit. -/
theorem projectionFields_eq_error {v : View} {above : List View} {k : Component} {e : CompileError}
    (he : projectionFields r v above k = .error e) :
    ∃ sources, k.data = some sources ∧ r.fitExpressions sources = [] ∧
      e = .fitSourceMissing k.name v.name := by
  unfold projectionFields at he
  split at he
  · cases he
  · rename_i sources hsources
    split at he
    · rename_i hnil
      exact ⟨sources, hsources, hnil, (Except.error.inj he).symm⟩
    · rename_i hne
      -- a fit to at least one source has an expression
      cases hexpressions : r.fitExpressions sources with
      | nil => exact absurd hexpressions hne
      | cons first rest =>
        rw [hexpressions] at he
        cases rest <;> cases he

/-- A guide is not completed only because its scale is no name. -/
theorem map_guideScale_eq_error {v : View} {above : List View} {k : Component}
    {f : Json → Fields} {e : CompileError} (he : (v.guideScale above k).map f = .error e) :
    e = .scaleNotAName := by
  unfold View.guideScale at he
  split at he <;> cases he <;> rfl

/-- A component is not completed for want of a fit source, or because a guide's scale is no name. -/
theorem entry_eq_error {r : Registry} {v : View} {above : List View} {s : Slot} {k : Component}
    {e : CompileError} (he : v.entry r above s k = .error e) :
    e = .scaleNotAName ∨ ∃ component view, e = .fitSourceMissing component view := by
  unfold View.entry at he
  split at he
  · obtain ⟨_, -, -, rfl⟩ := projectionFields_eq_error he
    exact Or.inr ⟨_, _, rfl⟩
  · cases he
  · exact Or.inl (map_guideScale_eq_error he)
  · exact Or.inl (map_guideScale_eq_error he)

section Completion

variable (h : IsResolved config settings t) (hr : r.BacksViews t.labels)
  (hdistinct : (t.labels.map View.mainOutput).Nodup)
  (hnames : ∀ l ∈ t.walk [], ∀ s k, s.family.isGuide = true →
    l.tree.label.components.get? s = some k → k.merged = false →
      ∀ x, k.explicit.get? "scale" = some x → x.isContainer = false)

include h hr hdistinct hnames

/-- A live component that cannot be completed is a projection that nothing backs. -/
theorem IsResolved.unbacked_of_entry {l : Located View} (hl : l ∈ t.walk []) {s : Slot}
    {k : Component} {e : CompileError} (hk : l.tree.label.components.get? s = some k)
    (hlive : k.merged = false) (he : l.tree.label.entry r l.above s k = .error e) :
    Unbacked l k ∧ e = .fitSourceMissing k.name l.tree.label.name := by
  have hsettled := h.settled l hl
  have hguides : s.family.isGuide ≠ true := by
    intro hguide
    obtain ⟨entry, hentry⟩ :=
      hsettled.exists_entry_of_guide hguide hk (hnames l hl s k hguide hk hlive)
    rw [hentry r] at he
    cases he
  have hslot := slot_of_projection s (hsettled.mem_sharingOrder hk)
  obtain ⟨f, c⟩ := s
  cases f with
  | axis => exact absurd rfl hguides
  | legend => exact absurd rfl hguides
  | scale => cases he
  | projection =>
    obtain rfl : c = none := congrArg Slot.channel (hslot rfl)
    obtain ⟨sources, hsources, hnil, rfl⟩ := projectionFields_eq_error he
    exact ⟨⟨hk, hlive, Component.isFit_of_data hsources,
      (h.fitExpressions_eq_nil_iff hr hdistinct hl hk hsources).1 hnil⟩, rfl⟩

/-- A view is completed unless nothing backs its projection. -/
theorem IsResolved.exists_componentLists {l : Located View} (hl : l ∈ t.walk [])
    (hbacked : ∀ k, ¬ Unbacked l k) :
    ∃ lists, l.tree.label.componentLists r l.above = .ok lists := by
  rcases View.componentLists_ok_or_error (h.settled l hl).nodup with hok | ⟨s, k, e, hk, hlive, he, -⟩
  · exact hok
  · exact absurd (h.unbacked_of_entry hr hdistinct hnames hl hk hlive he).1 (hbacked k)

/-- A view whose projection nothing backs is not completed. -/
theorem IsResolved.componentLists_of_unbacked {l : Located View} (hl : l ∈ t.walk [])
    {k : Component} (hunbacked : Unbacked l k) :
    l.tree.label.componentLists r l.above =
      .error (.fitSourceMissing k.name l.tree.label.name) := by
  have hnodup := (h.settled l hl).nodup
  obtain ⟨sources, hsources⟩ := Option.isSome_iff_exists.1 hunbacked.fit
  have hnil := (h.fitExpressions_eq_nil_iff hr hdistinct hl hunbacked.component hsources).2
    hunbacked.dataless
  rcases View.componentLists_ok_or_error hnodup with ⟨lists, hlists⟩ | ⟨s, j, e, hj, hlive, he, herror⟩
  · obtain ⟨entry, hentry⟩ :=
      exists_entry_of_componentLists hnodup hlists hunbacked.component hunbacked.live
    change projectionFields r l.tree.label l.above k = _ at hentry
    unfold projectionFields at hentry
    simp only [hsources, hnil] at hentry
    cases hentry
  · -- the failing component is the view's projection, which is this one
    obtain ⟨hother, rfl⟩ := h.unbacked_of_entry hr hdistinct hnames hl hj hlive he
    obtain rfl := Option.some.inj (hunbacked.component.symm.trans hother.component)
    exact herror

end Completion

end ViewTree

namespace TopLevelSpec

open ViewTree

variable {settings : Settings} {t : TopLevelSpec} {r : Registry}

theorem compile_eq_error (hr : t.registered settings = .ok r) {e : CompileError}
    (he : componentLists r.link ((t.resolved settings).walk []) = .error e) :
    t.compile settings = .error e := by
  unfold compile compileWithData
  rw [hr]
  show Except.map Prod.fst (assemble _ _ _ _) = _
  unfold assemble
  rw [he]
  rfl

theorem exists_compile (hr : t.registered settings = .ok r) {lists : ComponentLists}
    (hlists : componentLists r.link ((t.resolved settings).walk []) = .ok lists) :
    ∃ d, t.compile settings = .ok d := by
  unfold compile compileWithData
  rw [hr]
  show ∃ d, Except.map Prod.fst (assemble _ _ _ _) = _
  unfold assemble
  rw [hlists]
  exact ⟨_, rfl⟩

/-- A compile ends where a definition is refused, or at a component that is not completed. -/
theorem compile_eq_error_cases {e : CompileError} (he : t.compile settings = .error e) :
    t.firstRefusal? settings = some e ∨
      t.firstRefusal? settings = none ∧
        (e = .scaleNotAName ∨ ∃ component view, e = .fitSourceMissing component view) := by
  cases hrefusal : t.firstRefusal? settings with
  | some cause =>
    rw [compile_of_firstRefusal hrefusal] at he
    exact Or.inl (congrArg some (Except.error.inj he))
  | none =>
    refine Or.inr ⟨rfl, ?_⟩
    obtain ⟨r, hr⟩ := exists_registered hrefusal
    rcases ViewTree.componentLists_ok_or_error r.link ((t.resolved settings).walk []) with
      ⟨lists, hlists⟩ | ⟨l, hl, cause, hview, hcause⟩
    · obtain ⟨d, hd⟩ := exists_compile hr hlists
      rw [hd] at he
      cases he
    · obtain rfl := Except.error.inj ((compile_eq_error hr hcause).symm.trans he)
      have hnodup := ((isResolved_resolved settings t).settled l hl).nodup
      rcases @View.componentLists_ok_or_error r.link l.tree.label l.above hnodup with
        ⟨lists, hlists⟩ | ⟨s, k, cause', -, -, hentry, herror⟩
      · rw [hlists] at hview
        cases hview
      · obtain rfl := Except.error.inj (herror.symm.trans hview)
        exact entry_eq_error hentry

/-- Only what a compile refuses first ends it in an error that is not of a component. -/
theorem compile_eq_error_iff {e : CompileError} (hscale : e ≠ .scaleNotAName)
    (hfit : ∀ component view, e ≠ .fitSourceMissing component view) :
    t.compile settings = .error e ↔ t.firstRefusal? settings = some e := by
  refine ⟨fun he => ?_, compile_of_firstRefusal⟩
  rcases compile_eq_error_cases he with hrefusal | ⟨-, h | ⟨component, view, h⟩⟩
  · exact hrefusal
  · exact absurd h hscale
  · exact absurd h (hfit component view)

section Unrefused

variable (hr : t.firstRefusal? settings = none)
  (hdistinct : ((t.resolved settings).labels.map View.mainOutput).Nodup)
  (hnames : ∀ l ∈ (t.resolved settings).walk [], ∀ s k, s.family.isGuide = true →
    l.tree.label.components.get? s = some k → k.merged = false →
      ∀ x, k.explicit.get? "scale" = some x → x.isContainer = false)

include hr hdistinct hnames

/-- A compile that refuses no data gives a document if every live fit projection is backed. -/
theorem exists_compile_of_backed
    (hbacked : ∀ l ∈ (t.resolved settings).walk [], ∀ k, ¬ Unbacked l k) :
    ∃ d, t.compile settings = .ok d := by
  obtain ⟨r, hregistered, hr⟩ := exists_backing hr
  obtain ⟨lists, hlists⟩ := ViewTree.exists_componentLists fun l hl =>
    (isResolved_resolved settings t).exists_componentLists hr hdistinct hnames hl (hbacked l hl)
  exact exists_compile hregistered hlists

/-- A compile that refuses no data ends at the first live fit projection that nothing backs. -/
theorem compile_eq_error_of_unbacked
    (hsome : ∃ l ∈ (t.resolved settings).walk [], ∃ k, Unbacked l k) :
    ∃ before l after k, (t.resolved settings).walk [] = before ++ l :: after ∧
      (∀ p ∈ before, ∀ j, ¬ Unbacked p j) ∧ Unbacked l k ∧
        t.compile settings = .error (.fitSourceMissing k.name l.tree.label.name) := by
  have h := isResolved_resolved settings t
  obtain ⟨r, hregistered, hr⟩ := exists_backing hr
  obtain ⟨before, l, after, hwalk, ⟨k, hk⟩, hbefore⟩ := exists_first hsome
  have hbefore : ∀ p ∈ before, ∀ j, ¬ Unbacked p j := fun p hp => not_exists.1 (hbefore p hp)
  refine ⟨before, l, after, k, hwalk, hbefore, hk, compile_eq_error hregistered ?_⟩
  have hmem : ∀ p ∈ before ++ l :: after, p ∈ (t.resolved settings).walk [] := by
    rw [hwalk]
    exact fun p hp => hp
  rw [hwalk]
  refine ViewTree.componentLists_eq_error ?_ ?_
  · intro p hp
    exact h.exists_componentLists hr hdistinct hnames (hmem p (List.mem_append_left _ hp))
      (hbefore p hp)
  · exact h.componentLists_of_unbacked hr hdistinct hnames (hmem l (by simp)) hk

end Unrefused

/-- When a missing fit source is fatal. Let no two views have their main outputs under one name, let
the compile be lenient, and let no live guide set a list or an object as its scale. If data are nested
too deeply, the compile ends there, and only then. If none are, it ends in a missing fit source if and
only if none of the units that contribute to some live fit projection has data; the error names the
first such projection and its view in the order of the walk; and where there is none the compile gives
a document. -/
theorem fit_source_missing_iff {settings : Settings} {t : TopLevelSpec}
    (hdistinct : ((t.resolved settings).labels.map View.mainOutput).Nodup)
    (hlenient : settings.isStrict = false)
    (hnames : ∀ l ∈ (t.resolved settings).walk [], ∀ s k, s.family.isGuide = true →
      l.tree.label.components.get? s = some k → k.merged = false →
        ∀ x, k.explicit.get? "scale" = some x → x.isContainer = false) :
    (t.compile settings = .error .tooDeep ↔ t.HasDeepData) ∧
    (¬ t.HasDeepData →
      ((∃ component view, t.compile settings = .error (.fitSourceMissing component view)) ↔
        ∃ l ∈ (t.resolved settings).walk [], ∃ k, Unbacked l k) ∧
      (∀ component view, t.compile settings = .error (.fitSourceMissing component view) →
        ∃ before l after k, (t.resolved settings).walk [] = before ++ l :: after ∧
          (∀ p ∈ before, ∀ j, ¬ Unbacked p j) ∧ Unbacked l k ∧ k.name = component ∧
            l.tree.label.name = view) ∧
      ((∀ l ∈ (t.resolved settings).walk [], ∀ k, ¬ Unbacked l k) →
        ∃ d, t.compile settings = .ok d)) := by
  have hdeep : t.compile settings = .error .tooDeep ↔ t.HasDeepData :=
    (compile_eq_error_iff (e := .tooDeep) nofun fun _ _ => nofun).trans
      (firstRefusal?_eq_tooDeep_iff hlenient)
  refine ⟨hdeep, fun hshallow => ?_⟩
  have hr := (firstRefusal?_eq_none_of_lenient hlenient).2 hshallow
  by_cases hbacked : ∀ l ∈ (t.resolved settings).walk [], ∀ k, ¬ Unbacked l k
  · obtain ⟨d, hd⟩ := exists_compile_of_backed hr hdistinct hnames hbacked
    refine ⟨⟨?_, fun ⟨l, hl, k, hk⟩ => absurd hk (hbacked l hl k)⟩, ?_, fun _ => ⟨d, hd⟩⟩
    · rintro ⟨component, view, herror⟩
      rw [hd] at herror
      cases herror
    · intro component view herror
      rw [hd] at herror
      cases herror
  · push Not at hbacked
    obtain ⟨before, l, after, k, hwalk, hbefore, hk, herror⟩ :=
      compile_eq_error_of_unbacked hr hdistinct hnames hbacked
    refine ⟨iff_of_true ⟨_, _, herror⟩ hbacked, ?_, ?_⟩
    · intro component view hcompile
      rw [herror] at hcompile
      obtain ⟨hcomponent, hview⟩ := CompileError.fitSourceMissing.inj (Except.error.inj hcompile)
      exact ⟨before, l, after, k, hwalk, hbefore, hk, hcomponent, hview⟩
    · intro hall
      obtain ⟨m, hm, j, hj⟩ := hbacked
      exact absurd hj (hall m hm j)

/-- A map in a projection of some type. -/
def mapIn (type : String) : UnitSpec :=
  ⟨⟨"geoshape", .empty⟩, .empty, some ⟨[("type", .str type)]⟩⟩

/-- Two maps side by side in projections of their own, the second without data. -/
def mapsApart : TopLevelSpec :=
  let bare : ViewBase := ⟨none, none, none, none⟩
  ⟨.concat bare [.unit ⟨none, some ⟨.name "land", none⟩, none, none⟩ (mapIn "mercator"),
    .unit bare (mapIn "albers")] .horizontal .silent, .empty, .plain⟩

/-- The compile ends at the second map, which is the first that nothing backs. -/
theorem fit_source_missing_mapsApart :
    ((mapsApart.resolved .standard).labels.map View.mainOutput).Nodup ∧
      mapsApart.compile .standard =
        .error (.fitSourceMissing "concat_1_projection" "concat_1") ∧
      (∃ l ∈ (mapsApart.resolved .standard).walk [], ∃ k, Unbacked l k) ∧
      ∃ before l after k, (mapsApart.resolved .standard).walk [] = before ++ l :: after ∧
        (∀ p ∈ before, ∀ j, ¬ Unbacked p j) ∧ Unbacked l k ∧ k.name = "concat_1_projection" ∧
          l.tree.label.name = "concat_1" := by
  have hdistinct : ((mapsApart.resolved .standard).labels.map View.mainOutput).Nodup := by
    decide +kernel
  have hguides : ∀ l ∈ (mapsApart.resolved .standard).walk [],
      ∀ e ∈ l.tree.label.components.entries, e.1.family.isGuide = false := by
    decide +kernel
  have hshallow : ¬ mapsApart.HasDeepData := by
    have hall : ∀ b ∈ mapsApart.view.bases, ∀ d ∈ b.data, d.isTooDeep = false := by
      decide +kernel
    rintro ⟨b, hb, d, hd, hdeep⟩
    exact absurd ((hall b hb d hd).symm.trans hdeep) Bool.false_ne_true
  have hcompile : mapsApart.compile .standard =
      .error (.fitSourceMissing "concat_1_projection" "concat_1") :=
    (map_eq_error_iff fun _ => ()).1 (by decide +kernel)
  have hnames : ∀ l ∈ (mapsApart.resolved .standard).walk [], ∀ s k, s.family.isGuide = true →
      l.tree.label.components.get? s = some k → k.merged = false →
        ∀ x, k.explicit.get? "scale" = some x → x.isContainer = false := by
    intro l hl s k hguide hk
    have hnone := hguides l hl (s, k) (OrderedMap.mem_entries_of_get? hk)
    exact absurd (hnone.symm.trans hguide) Bool.false_ne_true
  obtain ⟨-, houtcomes⟩ := fit_source_missing_iff hdistinct rfl hnames
  obtain ⟨hiff, hfirst, -⟩ := houtcomes hshallow
  exact ⟨hdistinct, hcompile, hiff.1 ⟨_, _, hcompile⟩, hfirst _ _ hcompile⟩

/-! ## Data that are nested too deeply -/

/-- A null within so many lists. -/
def nestedLists : Nat → Json
  | 0 => .null
  | n + 1 => .arr [nestedLists n]

theorem distinctKeys_nestedLists (n : Nat) : (nestedLists n).distinctKeys = true := by
  induction n with
  | zero => rfl
  | succ n ih =>
    rw [nestedLists, Json.distinctKeys, Json.distinctKeysAll, ih]
    rfl

/-- A bar over a row with one cell of many nested lists. -/
def deepRow : TopLevelSpec :=
  ⟨.unit ⟨none, some ⟨.values [⟨[("a", nestedLists 255)]⟩], none⟩, none, none⟩
    ⟨⟨"bar", .empty⟩, .empty, none⟩, .empty, .plain⟩

theorem accepted_deepRow : deepRow.Accepted := by
  refine ⟨.obj [("mark", .str "bar"), ("data", .obj [("values",
    .arr [.obj [("a", nestedLists 255)]])])], ?_, rfl⟩
  simp [Json.distinctKeys, Json.distinctKeysAll, Json.distinctKeysFields,
    distinctKeys_nestedLists]

/-- An accepted chart without any projection has no document, for its data are nested too deeply. -/
theorem compile_deepRow : deepRow.Accepted ∧
    ((deepRow.resolved .standard).labels.map View.mainOutput).Nodup ∧
    Settings.standard.isStrict = false ∧
    (∀ l ∈ (deepRow.resolved .standard).walk [],
      ∀ e ∈ l.tree.label.components.entries, e.1.family.isGuide = false) ∧
    (∀ l ∈ (deepRow.resolved .standard).walk [], ∀ k, ¬ Unbacked l k) ∧
    ∀ d, deepRow.compile .standard ≠ .ok d := by
  have hdistinct : ((deepRow.resolved .standard).labels.map View.mainOutput).Nodup := by
    decide +kernel
  have hguides : ∀ l ∈ (deepRow.resolved .standard).walk [],
      ∀ e ∈ l.tree.label.components.entries, e.1.family.isGuide = false := by
    decide +kernel
  have hnone : ∀ l ∈ (deepRow.resolved .standard).walk [],
      l.tree.label.component? .projection none = none := by
    decide +kernel
  have herror : deepRow.compile .standard = .error .tooDeep :=
    (map_eq_error_iff fun _ => ()).1 (by decide +kernel)
  refine ⟨accepted_deepRow, hdistinct, rfl, hguides, ?_, ?_⟩
  · intro l hl k hk
    have hcomponent := hk.component
    rw [hnone l hl] at hcomponent
    cases hcomponent
  · intro d hd
    cases hd.symm.trans herror

end TopLevelSpec

end ChartLowering
