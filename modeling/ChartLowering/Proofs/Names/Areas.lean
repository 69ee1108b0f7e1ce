import ChartLowering.Proofs.Names.Sizes
import ChartLowering.Proofs.Sharing.Contributors

/-
  Drawing areas.

  Layers that lie over each other draw in one area, that of the topmost layer around them (`areaOf`).
  Where no view has a name of its own, the size of a unit or a layer is looked up to that of its area
  (`SizeScoped.sizeSignal_area`), so the live sizes are those of areas (`SizeScoped.hasLiveSize_iff`).
  A projection that is fit fills the area of its unit. Where projections are shared their areas are
  compared by the names of their signals, which tell areas apart, so a fit projection stays within one
  area however far up it ends (`fit_area`).
-/

namespace ChartLowering

namespace ViewTree

open View

variable {config : Config} {settings : Settings} {t : ViewTree}

/-! ## Areas -/

/-- The address of the area that the view at an address draws in: from the view upwards for as long as
the parent is a layer. -/
def areaOf (t : ViewTree) : List Nat → List Nat
  | [] => []
  | i :: a =>
    if (t.locate? a).any fun p => p.tree.label.kind == .layer then areaOf t a else i :: a

theorem areaOf_of_layer {a : List Nat} {p : Located View} (hp : t.locate? a = some p)
    (h : p.tree.label.kind = .layer) (i : Nat) : t.areaOf (i :: a) = t.areaOf a := by
  rw [areaOf, hp, Option.any_some, h]
  rfl

theorem areaOf_of_not_layer {a : List Nat} {p : Located View} (hp : t.locate? a = some p)
    (h : p.tree.label.kind ≠ .layer) (i : Nat) : t.areaOf (i :: a) = i :: a := by
  rw [areaOf, hp, Option.any_some, if_neg (by simpa using h)]

/-- An area is its own area. -/
theorem areaOf_areaOf (a : List Nat) : t.areaOf (t.areaOf a) = t.areaOf a := by
  induction a with
  | nil => rfl
  | cons i a ih =>
    by_cases h : ((t.locate? a).any fun p => p.tree.label.kind == .layer) = true
    · have harea : t.areaOf (i :: a) = t.areaOf a := by rw [areaOf, if_pos h]
      rw [harea, ih]
    · have harea : t.areaOf (i :: a) = i :: a := by rw [areaOf, if_neg h]
      rw [harea, harea]

namespace SizeScoped

variable (h : SizeScoped t) (hnumbered : t.Everywhere fun u => NumberedNames (u.map View.name))

include h hnumbered

/-- The size of a unit or a layer is looked up to that of its area. -/
theorem sizeSignal_area (a : List Nat) :
    ∀ l, t.locate? a = some l → l.tree.label.isSized = true →
      ∃ m, t.locate? (t.areaOf a) = some m ∧ m.tree.label.isSized = true ∧
        ∀ d, l.tree.label.sizeSignal l.above d = m.tree.label.partName d.name := by
  induction a with
  | nil =>
    intro l hl hsized
    obtain rfl : ⟨t, []⟩ = l := Option.some.inj hl
    exact ⟨⟨t, []⟩, rfl, hsized, fun d => (h.seenFrom_root _).trans (assigned_sizeNames hsized none d)⟩
  | cons i a ih =>
    intro l hl hsized
    obtain ⟨p, hp, hstep⟩ := h.seenFrom_child hl
    have houter : ∀ d, l.tree.label.sizeSignal l.above d =
        seenFrom p .signal (l.tree.label.outerSize (some p.tree.label) d) := fun d =>
      (hstep _).trans (congrArg _ (assigned_sizeNames hsized (some p.tree.label) d))
    by_cases hlayer : p.tree.label.kind = .layer
    · obtain ⟨m, hm, hmsized, hsize⟩ := ih p hp (isSized_of_layer hlayer)
      refine ⟨m, ?_, hmsized, fun d => ?_⟩
      · rw [areaOf_of_layer hp hlayer]
        exact hm
      · have hown : l.tree.label.outerSize (some p.tree.label) d = p.tree.label.partName d.name :=
          if_pos hlayer
        rw [houter, hown]
        exact hsize d
    · refine ⟨l, ?_, hsized, fun d => ?_⟩
      · rw [areaOf_of_not_layer hp hlayer]
        exact hl
      · have hown : l.tree.label.outerSize (some p.tree.label) d = l.tree.label.partName d.name :=
          if_neg hlayer
        rw [houter, hown]
        -- no view further up has a size of this name
        refine h.lookup_of_not_size a p hp fun b m hb hm _ e => ?_
        refine partName_ne hnumbered hm hl ?_ (isOwnPart_dimension e) (isOwnPart_dimension d)
        rintro rfl
        have hlength := hb.length_le
        rw [List.length_cons] at hlength
        omega

/-- The live sizes are those of areas. -/
theorem hasLiveSize_iff {a : List Nat} {l : Located View} (hl : t.locate? a = some l) (d : Dimension) :
    l.tree.label.hasLiveSize l.above d = true ↔ l.tree.label.isSized = true ∧ t.areaOf a = a := by
  unfold hasLiveSize
  rw [Bool.and_eq_true, beq_iff_eq]
  refine and_congr_right fun hsized => ?_
  obtain ⟨m, hm, -, hsize⟩ := h.sizeSignal_area hnumbered a l hl hsized
  rw [hsize]
  constructor
  · intro hname
    by_contra hne
    exact partName_ne hnumbered hm hl hne (isOwnPart_dimension d) (isOwnPart_dimension d) hname
  · intro harea
    rw [harea] at hm
    rw [Option.some.inj (hm.symm.trans hl)]

/-- What a unit or a layer draws in is a view with a live size, by which its own size goes. -/
theorem exists_area {a : List Nat} {l : Located View} (hl : t.locate? a = some l)
    (hsized : l.tree.label.isSized = true) :
    ∃ m, t.locate? (t.areaOf a) = some m ∧ (∀ d, m.tree.label.hasLiveSize m.above d = true) ∧
      ∀ d, l.tree.label.sizeSignal l.above d = m.tree.label.partName d.name := by
  obtain ⟨m, hm, hmsized, hsize⟩ := h.sizeSignal_area hnumbered a l hl hsized
  exact ⟨m, hm, fun d => (h.hasLiveSize_iff hnumbered hm d).2 ⟨hmsized, areaOf_areaOf a⟩, hsize⟩

end SizeScoped

/-! ## Projections that fill an area -/

/-- The component of a unit fills the area of the unit or none. -/
theorem Settled.size_unit {l : Located View} (h : Settled config settings l) {u : UnitSpec}
    (hform : l.tree.label.form = .unit u) {s : Slot} {k : Component}
    (hk : l.tree.label.components.get? s = some k) (hsize : k.size ≠ none) :
    k.size = some (Dimension.all.map fun d =>
      Json.signalRef (l.tree.label.sizeSignal l.above d)) := by
  have hget := get?_asMade_of_some hk
  rw [h.get?_unit hform (h.mem_sharingOrder hk)] at hget
  rcases unitComponent?_fit hget with ⟨-, hnone⟩ | ⟨-, harea⟩
  · exact absurd hnone hsize
  · exact harea

/-- A component that fills an area fills that of a unit at or below its view. -/
theorem IsResolved.exists_area (h : IsResolved config settings t) :
    ∀ l ∈ t.walk [], ∀ s k, l.tree.label.components.get? s = some k → k.size ≠ none →
      ∃ m ∈ l.tree.walk l.above, ∃ u, m.tree.label.form = .unit u ∧
        k.size = some (Dimension.all.map fun d =>
          Json.signalRef (m.tree.label.sizeSignal m.above d)) := by
  apply Tree.forall_walk_up
  intro l hl ih s k hk hsome
  have hsettled := h.settled l hl
  by_cases hform : ∃ u, l.tree.label.form = .unit u
  · obtain ⟨u, hu⟩ := hform
    exact ⟨l, Tree.self_mem_walk l.above l.tree, u, hu, hsettled.size_unit hu hk hsome⟩
  · obtain ⟨-, w, hw, j, hj, hsize, -⟩ := hsettled.fit_composite (not_exists.1 hform) hk
    rw [hsize] at hsome ⊢
    obtain ⟨m, hm, hunit⟩ := ih w hw s j hj hsome
    exact ⟨m, Tree.mem_walk.2 (Or.inr ⟨w, hw, hm⟩), hunit⟩

/-- What a shared component was made of fills the same area. -/
theorem Settled.size_eq_iff {l : Located View} (h : Settled config settings l) {w : ViewTree}
    (hw : w ∈ l.tree.children) {s : Slot} {k j : Component}
    (hk : l.tree.label.components.get? s = some k) (hj : w.label.components.get? s = some j)
    (names : List String) :
    k.size = some (names.map Json.signalRef) ↔ j.size = some (names.map Json.signalRef) := by
  obtain ⟨-, r, hr, heq⟩ := h.sharedFrom (h.form_ne_unit hw) hk
  have hsize : k.unmerged.size = r.size := by
    rw [heq]
    exact (data_sharedComponent _ _ _ _ _).2
  show k.unmerged.size = _ ↔ j.unmerged.size = _
  rw [hsize]
  exact Component.size_eq_iff_of_reduce hr names j.unmerged (mem_presentAt.2 ⟨w, hw, j, hj, rfl⟩)

/-- What ended in a component fills the same area. -/
theorem IsResolved.size_end (h : IsResolved config settings t) {s : Slot} {a b : List Nat}
    {k j : Component} (hj : t.componentAt? s a = some j) (hb : t.endOf? s a = some b)
    (hk : t.componentAt? s b = some k) (names : List String) :
    k.size = some (names.map Json.signalRef) ↔ j.size = some (names.map Json.signalRef) := by
  obtain ⟨c, i, hc, hi, -, hsame⟩ := h.related_end (s := s)
    (R := fun k j => k.size = some (names.map Json.signalRef) ↔ j.size = some (names.map Json.signalRef))
    (fun _ => Iff.rfl) Iff.trans
    (fun l hl _ hu _ _ hk hj => (h.settled l hl).size_eq_iff hu hk hj names) a j hj
  obtain rfl : b = c := Option.some.inj (hb.symm.trans hc)
  obtain rfl : k = i := Option.some.inj (hk.symm.trans hi)
  exact hsame

/-- A unit with a projection that is fit. -/
def IsFitUnit (t : ViewTree) (a : List Nat) : Prop :=
  ∃ l u k, t.locate? a = some l ∧ l.tree.label.form = .unit u ∧
    l.tree.label.component? .projection none = some k ∧ k.isFit = true

/-- A unit whose component ended in one that fills an area fills that area, and it is its own. -/
theorem IsResolved.area_of_end (h : IsResolved config settings t) (hscoped : SizeScoped t)
    (hnumbered : t.Everywhere fun u => NumberedNames (u.map View.name)) {s : Slot} {a b : List Nat}
    {l : Located View} {u : UnitSpec} (hl : t.locate? a = some l)
    (hform : l.tree.label.form = .unit u) (hb : t.endOf? s a = some b) {k : Component}
    (hk : t.componentAt? s b = some k) (hsize : k.size ≠ none) :
    (∃ j, l.tree.label.components.get? s = some j ∧ j.size ≠ none) ∧
      ∃ m, t.locate? (t.areaOf a) = some m ∧ (∀ d, m.tree.label.hasLiveSize m.above d = true) ∧
        k.size = some (Dimension.all.map fun d => Json.signalRef (m.tree.label.partName d.name)) := by
  obtain ⟨j, hj⟩ := Option.isSome_iff_exists.1 (isSome_of_endOf? hb)
  have hjl := hj
  rw [componentAt?_of_locate? hl] at hjl
  -- the live component fills some area by its signals, so the unit's fills the same one
  obtain ⟨p, hp, hkp⟩ := componentAt?_eq_some.1 hk
  obtain ⟨w, -, -, -, harea⟩ := h.exists_area p (Tree.mem_walk_of_locate? hp) s k hkp hsize
  have hjsize : j.size = k.size := by
    have hsame := h.size_end hj hb hk
      (Dimension.all.map fun d => w.tree.label.sizeSignal w.above d)
    rw [List.map_map] at hsame
    rw [harea]
    exact hsame.1 harea
  refine ⟨⟨j, hjl, hjsize ▸ hsize⟩, ?_⟩
  obtain ⟨m, hm, hlive, hnames⟩ := hscoped.exists_area hnumbered hl (isSized_of_unit hform)
  refine ⟨m, hm, hlive, ?_⟩
  rw [← hjsize, (h.settledAt hl).size_unit hform hjl (hjsize ▸ hsize)]
  simp only [hnames]

theorem refs_injective {f g : Dimension → String}
    (h : (Dimension.all.map fun d => Json.signalRef (f d)) =
      Dimension.all.map fun d => Json.signalRef (g d)) (d : Dimension) : f d = g d := by
  simp only [Dimension.all, List.map_cons, List.map_nil, Json.signalRef, List.cons.injEq,
    Json.obj.injEq, Prod.mk.injEq, Json.str.injEq, true_and, and_true] at h
  cases d with
  | width => exact h.1
  | height => exact h.2

/-- Units that end in one component that fills an area draw in the same area. -/
theorem IsResolved.areaOf_eq (h : IsResolved config settings t) (hscoped : SizeScoped t)
    (hnumbered : t.Everywhere fun u => NumberedNames (u.map View.name)) {s : Slot} {a a' b : List Nat}
    {l l' : Located View} {u u' : UnitSpec} (hl : t.locate? a = some l)
    (hform : l.tree.label.form = .unit u) (hb : t.endOf? s a = some b)
    (hl' : t.locate? a' = some l') (hform' : l'.tree.label.form = .unit u')
    (hb' : t.endOf? s a' = some b) {k : Component} (hk : t.componentAt? s b = some k)
    (hsize : k.size ≠ none) : t.areaOf a' = t.areaOf a := by
  obtain ⟨-, m, hm, -, harea⟩ := h.area_of_end hscoped hnumbered hl hform hb hk hsize
  obtain ⟨-, m', hm', -, harea'⟩ := h.area_of_end hscoped hnumbered hl' hform' hb' hk hsize
  have hname : m'.tree.label.partName Dimension.width.name = m.tree.label.partName Dimension.width.name :=
    refs_injective (Option.some.inj (harea'.symm.trans harea)) .width
  by_contra hne
  exact partName_ne hnumbered hm' hm hne (isOwnPart_dimension _) (isOwnPart_dimension _) hname

/-- The projection of a fit unit ends in one that is fit. -/
theorem IsFitUnit.exists_end (h : IsResolved config settings t) {a : List Nat} (ha : t.IsFitUnit a) :
    ∃ b k, t.endOf? ⟨.projection, none⟩ a = some b ∧
      t.componentAt? ⟨.projection, none⟩ b = some k ∧ k.size ≠ none := by
  obtain ⟨l, u, j, hl, hform, hj, hfit⟩ := ha
  have hjsize : j.size ≠ none := by
    rw [Ne, ← h.data_eq_none_iff l (Tree.mem_walk_of_locate? hl) _ j hj]
    exact Option.isSome_iff_ne_none.1 hfit
  have hat : t.componentAt? ⟨.projection, none⟩ a = some j := componentAt?_eq_some.2 ⟨l, hl, hj⟩
  obtain ⟨b, k, hb, hk, -⟩ := h.exists_end a j hat
  have harea := (h.settledAt hl).size_unit hform hj hjsize
  have hsame := h.size_end hat hb hk (Dimension.all.map fun d => l.tree.label.sizeSignal l.above d)
  rw [List.map_map] at hsame
  refine ⟨b, k, hb, hk, ?_⟩
  rw [hsame.2 harea]
  exact Option.some_ne_none _

end ViewTree

namespace TopLevelSpec

open ViewTree View

/-- Where no view has a name of its own, every live projection that is fit is so to one area: its size
refers to the live width and height of that area, some fit unit ended in it, and every unit that ended
in it is fit and draws in that area. So fit units that draw in different areas end in different
projections. -/
theorem fit_area (settings : Settings) {t : TopLevelSpec} (hunnamed : t.view.Unnamed) :
    (∀ b l k, (t.resolved settings).locate? b = some l →
      l.tree.label.component? .projection none = some k → k.merged = false → k.isFit = true →
      ∃ c m, (t.resolved settings).locate? c = some m ∧
        (∀ d, m.tree.label.hasLiveSize m.above d = true) ∧
        k.size = some (Dimension.all.map fun d => Json.signalRef (m.tree.label.partName d.name)) ∧
        (∃ a, (t.resolved settings).IsFitUnit a ∧
          (t.resolved settings).endOf? ⟨.projection, none⟩ a = some b) ∧
        ∀ a p u, (t.resolved settings).locate? a = some p → p.tree.label.form = .unit u →
          (t.resolved settings).endOf? ⟨.projection, none⟩ a = some b →
            (t.resolved settings).IsFitUnit a ∧ (t.resolved settings).areaOf a = c) ∧
    ∀ a b, (t.resolved settings).IsFitUnit a → (t.resolved settings).IsFitUnit b →
      (t.resolved settings).areaOf a ≠ (t.resolved settings).areaOf b →
        (t.resolved settings).endOf? ⟨.projection, none⟩ a ≠
          (t.resolved settings).endOf? ⟨.projection, none⟩ b := by
  have h := isResolved_resolved settings t
  have hscoped := sizeScoped_resolved settings t
  have hnumbered := numbered_resolved settings hunnamed
  refine ⟨?one, ?apart⟩
  case one =>
    intro b l k hl hk hlive hfit
    have hat : (t.resolved settings).componentAt? ⟨.projection, none⟩ b = some k :=
      componentAt?_eq_some.2 ⟨l, hl, hk⟩
    have hsize : k.size ≠ none := by
      rw [Ne, ← h.data_eq_none_iff l (Tree.mem_walk_of_locate? hl) _ k hk]
      exact Option.isSome_iff_ne_none.1 hfit
    have hunit : ∀ a p u, (t.resolved settings).locate? a = some p →
        p.tree.label.form = .unit u →
        (t.resolved settings).endOf? ⟨.projection, none⟩ a = some b →
          (t.resolved settings).IsFitUnit a := by
      intro a p u hp hform hend
      obtain ⟨⟨j, hj, hjsize⟩, -⟩ := h.area_of_end hscoped hnumbered hp hform hend hat hsize
      refine ⟨p, u, j, hp, hform, hj, Option.isSome_iff_ne_none.2 ?_⟩
      rwa [Ne, h.data_eq_none_iff p (Tree.mem_walk_of_locate? hp) _ j hj]
    obtain ⟨a, p, u, hp, hform, -, hend⟩ := h.promoted.reached b _ k hat hlive
    obtain ⟨-, m, hm, hmlive, harea⟩ := h.area_of_end hscoped hnumbered hp hform hend hat hsize
    refine ⟨_, m, hm, hmlive, harea, ⟨a, hunit a p u hp hform hend, hend⟩, ?_⟩
    intro a' p' u' hp' hform' hend'
    exact ⟨hunit a' p' u' hp' hform' hend',
      h.areaOf_eq hscoped hnumbered hp hform hend hp' hform' hend' hat hsize⟩
  case apart =>
    intro a b ha hb hne hend
    obtain ⟨c, k, hc, hk, hsize⟩ := ha.exists_end h
    obtain ⟨l, u, -, hl, hform, -⟩ := ha
    obtain ⟨m, w, -, hm, hmform, -⟩ := hb
    exact hne (h.areaOf_eq hscoped hnumbered hm hmform (hend ▸ hc) hl hform hc hk hsize)

/-- A facet of a layer of two maps, beside a map. -/
def facetBesideMap : TopLevelSpec :=
  let bare : ViewBase := ⟨none, none, none, none⟩
  let origin : ChannelDef := ⟨.field "origin", some .nominal, none, .unset, .unset, .empty⟩
  ⟨.concat bare [.facet bare ⟨none, some origin, none⟩
      (.layer bare [.unit bare rowsMap, .unit bare rowsMap] .silent) .silent,
    .unit bare rowsMap] .horizontal .silent, .empty, .plain⟩

/-- The maps in the layer share a projection at the facet, which fills the layer, and the map beside
the facet keeps its own. -/
theorem fit_area_facetBesideMap : ∃ l k,
    (facetBesideMap.resolved .standard).locate? [0] = some l ∧
    l.tree.label.component? .projection none = some k ∧
    (∃ m, (facetBesideMap.resolved .standard).locate? [0, 0] = some m ∧
      k.size = some (Dimension.all.map fun d => Json.signalRef (m.tree.label.partName d.name))) ∧
    (facetBesideMap.resolved .standard).endOf? ⟨.projection, none⟩ [1, 0, 0] ≠
      (facetBesideMap.resolved .standard).endOf? ⟨.projection, none⟩ [1] := by
  have hlive : ((facetBesideMap.resolved .standard).locate? [0]).any (fun l =>
      (l.tree.label.component? .projection none).any fun k => !k.merged && k.isFit) = true := by
    decide +kernel
  have hunits : ∀ a ∈ [[1, 0, 0], [1]], ((facetBesideMap.resolved .standard).locate? a).any (fun l =>
      decide (l.tree.label.form = .unit rowsMap) &&
        (l.tree.label.component? .projection none).any Component.isFit) = true := by
    decide +kernel
  have hareas : (facetBesideMap.resolved .standard).areaOf [1, 0, 0] = [0, 0] ∧
      (facetBesideMap.resolved .standard).areaOf [1] = [1] ∧
      (facetBesideMap.resolved .standard).endOf? ⟨.projection, none⟩ [1, 0, 0] = some [0] := by
    decide +kernel
  have hfit : ∀ a ∈ [[1, 0, 0], [1]], (facetBesideMap.resolved .standard).IsFitUnit a := by
    intro a ha
    obtain ⟨l, hl, hunit⟩ := (Option.any_eq_true _ _).1 (hunits a ha)
    obtain ⟨hform, hprojection⟩ := Bool.and_eq_true_iff.1 hunit
    obtain ⟨k, hk, hkfit⟩ := (Option.any_eq_true _ _).1 hprojection
    exact ⟨l, rowsMap, k, hl, of_decide_eq_true hform, hk, hkfit⟩
  obtain ⟨hone, hapart⟩ := fit_area .standard (t := facetBesideMap) (by decide)
  obtain ⟨l, hl, hprojection⟩ := (Option.any_eq_true _ _).1 hlive
  obtain ⟨k, hk, hkfit⟩ := (Option.any_eq_true _ _).1 hprojection
  rw [Bool.and_eq_true, Bool.not_eq_true'] at hkfit
  obtain ⟨c, m, hm, -, hsize, -, hall⟩ := hone [0] l k hl hk hkfit.1 hkfit.2
  obtain ⟨p, u, -, hp, hform, -⟩ := hfit [1, 0, 0] (by simp)
  obtain rfl : [0, 0] = c := hareas.1.symm.trans (hall _ p u hp hform hareas.2.2).2
  refine ⟨l, k, hl, hk, ⟨m, hm, hsize⟩, ?_⟩
  refine hapart _ _ (hfit _ (by simp)) (hfit _ (by simp)) ?_
  rw [hareas.1, hareas.2.1]
  decide

end TopLevelSpec

end ChartLowering
