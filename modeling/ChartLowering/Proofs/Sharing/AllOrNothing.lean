import ChartLowering.Proofs.Sharing.Contributors

/-
  Fit is all or nothing.

  A projection is fit to some data, fills an area, and sets neither a scale nor a translation; or it
  does none of this. In a unit that is decided by what is set for its projection. A composite gathers
  the data of all its children but takes the area and the explicit layer from one of them, so there
  it needs that the children agree, as they do if their components have merged
  (`IsResolved.size_eq_none_iff_isPlaced`).
-/

namespace ChartLowering

namespace View

variable {config : Config} {settings : Settings} {above : List View}

/-- The projection of a unit fills an area unless it is placed by hand. -/
theorem unitProjection?_size {v : View} {u : UnitSpec} {k : Component}
    (h : unitProjection? config settings above v u = some k) :
    k.size = none ↔ isPlaced k.explicit = true := by
  unfold unitProjection? at h
  split at h
  · cases h
  · rw [← Option.some.inj h]
    show (if !isPlaced (explicitFields config .projection (u.projection.getD .empty)) then
      some _ else none) = none ↔
        isPlaced (explicitFields config .projection (u.projection.getD .empty)) = true
    cases isPlaced (explicitFields config .projection (u.projection.getD .empty)) <;> simp

theorem isPlaced_eq_false_iff {fs : Fields} :
    isPlaced fs = false ↔ fs.contains "scale" = false ∧ fs.contains "translate" = false := by
  unfold isPlaced
  rw [Bool.or_eq_false_iff]

end View

namespace ViewTree

open View

variable {config : Config} {settings : Settings} {l : Located View} {t : ViewTree}

/-- The component of a composite has the explicit layer and the area of one of the children's. -/
theorem IsResolved.exists_representative (h : IsResolved config settings t) (hl : l ∈ t.walk [])
    (hform : ∀ u, l.tree.label.form ≠ .unit u) {s : Slot} {k : Component}
    (hk : l.tree.label.components.get? s = some k) :
    ∃ u ∈ l.tree.children, ∃ j, u.label.components.get? s = some j ∧
      k.explicit = j.explicit ∧ k.size = j.size := by
  obtain ⟨-, r, hr, heq⟩ := (h.settled l hl).sharedFrom hform hk
  obtain ⟨u, hu, j, hj, rfl⟩ := mem_presentAt.1 (Component.mem_of_reduce hr)
  have hspecified := (h.settled _ (Tree.child_mem_walk hl hu)).specified_eq hj
  refine ⟨u, hu, j, hj, ?_, ?_⟩
  · show k.unmerged.explicit = j.explicit
    rw [heq, (explicit_sharedComponent _ _ _ _ _).1]
    exact hspecified
  · show k.unmerged.size = j.size
    rw [heq, (data_sharedComponent _ _ _ _ _).2]
    rfl

/-- A projection fills an area unless its explicit layer places it by hand. -/
theorem IsResolved.size_eq_none_iff_isPlaced (h : IsResolved config settings t) :
    ∀ l ∈ t.walk [], ∀ k, l.tree.label.components.get? ⟨.projection, none⟩ = some k →
      (k.size = none ↔ isPlaced k.explicit = true) := by
  apply Tree.forall_walk_up
  intro l hl ih k hk
  have hsettled := h.settled l hl
  by_cases hform : ∃ u, l.tree.label.form = .unit u
  · obtain ⟨u, hu⟩ := hform
    have hget := get?_asMade_of_some hk
    rw [hsettled.get?_unit hu (hsettled.mem_sharingOrder hk)] at hget
    show k.unmerged.size = none ↔ isPlaced k.unmerged.explicit = true
    exact unitProjection?_size hget
  · obtain ⟨u, hu, j, hj, hexplicit, hsize⟩ := h.exists_representative hl (not_exists.1 hform) hk
    rw [hexplicit, hsize]
    exact ih u hu j hj

end ViewTree

namespace TopLevelSpec

open ViewTree View

/-- A projection, shared or a unit's own, merged or not, is fit if and only if it fills an area, and
if and only if its explicit layer sets neither a scale nor a translation. In a unit this layer is what
the chart configures beneath what the unit gives. Where it is shared the children's projections are
merged, and either all of them are fit or none is. -/
theorem fit_all_or_nothing (settings : Settings) (t : TopLevelSpec) :
    ∀ l ∈ (t.resolved settings).walk [], ∀ k, l.tree.label.component? .projection none = some k →
      (k.isFit = true ↔ k.size ≠ none) ∧
      (k.isFit = true ↔
        k.explicit.contains "scale" = false ∧ k.explicit.contains "translate" = false) ∧
      (∀ u, l.tree.label.form = .unit u →
        k.explicit = explicitFields t.config .projection (u.projection.getD .empty)) ∧
      ∀ child ∈ l.tree.children, ∀ j, child.label.component? .projection none = some j →
        j.merged = true ∧ j.isFit = k.isFit := by
  intro l hl k hk
  have h := isResolved_resolved settings t
  have harea : k.isFit = true ↔ k.size ≠ none := by
    rw [Component.isFit, Option.isSome_iff_ne_none, Ne, h.data_eq_none_iff l hl _ k hk]
  refine ⟨harea, ?_, ?_, ?_⟩
  · rw [harea, Ne, h.size_eq_none_iff_isPlaced l hl k hk, Bool.not_eq_true, isPlaced_eq_false_iff]
  · intro u hu
    exact (h.settled l hl).explicit_unit hu hk
  · intro child hchild j hj
    obtain ⟨hmerged, hnone⟩ := h.fit_child hl hchild hk hj
    refine ⟨(hasMerged_of_get? hj).symm.trans hmerged, ?_⟩
    unfold Component.isFit
    rw [Bool.eq_iff_iff, Option.isSome_iff_ne_none, Option.isSome_iff_ne_none, Ne, hnone]

/-- The nested maps with a scale configured for their projections. -/
def nestedMapsPlaced : TopLevelSpec :=
  { nestedMaps with config := { Config.plain with projection := ⟨[("scale", .int 100)]⟩ } }

/-- The maps are fit together, and none of them is if a scale is configured. -/
theorem fit_all_or_nothing_nestedMaps : ∃ l k m j,
    (nestedMaps.resolved .standard).locate? [] = some l ∧
    l.tree.label.component? .projection none = some k ∧ k.isFit = true ∧ k.size ≠ none ∧
    (∀ child ∈ l.tree.children, ∀ i, child.label.component? .projection none = some i →
      i.merged = true ∧ i.isFit = true) ∧
    (nestedMapsPlaced.resolved .standard).locate? [0] = some m ∧
    m.tree.label.component? .projection none = some j ∧ j.isFit = false ∧ j.merged = true ∧
    j.explicit.contains "scale" = true := by
  have hfit : ((nestedMaps.resolved .standard).locate? []).any (fun l =>
      (l.tree.label.component? .projection none).any Component.isFit) = true := by
    decide +kernel
  have hplaced : ((nestedMapsPlaced.resolved .standard).locate? [0]).any (fun l =>
      (l.tree.label.component? .projection none).any fun k =>
        k.merged && k.explicit.contains "scale") = true := by
    decide +kernel
  obtain ⟨l, hl, hfit⟩ := (Option.any_eq_true _ _).1 hfit
  obtain ⟨k, hk, hfit⟩ := (Option.any_eq_true _ _).1 hfit
  obtain ⟨m, hm, hplaced⟩ := (Option.any_eq_true _ _).1 hplaced
  obtain ⟨j, hj, hplaced⟩ := (Option.any_eq_true _ _).1 hplaced
  obtain ⟨hmerged, hscale⟩ := Bool.and_eq_true_iff.1 hplaced
  obtain ⟨harea, -, -, hchildren⟩ :=
    fit_all_or_nothing .standard nestedMaps l (Tree.mem_walk_of_locate? hl) k hk
  obtain ⟨-, hopen, -⟩ :=
    fit_all_or_nothing .standard nestedMapsPlaced m (Tree.mem_walk_of_locate? hm) j hj
  refine ⟨l, k, m, j, hl, hk, hfit, harea.1 hfit, ?_, hm, hj, ?_, hmerged, hscale⟩
  · intro child hchild i hi
    obtain ⟨hi, hsame⟩ := hchildren child hchild i hi
    exact ⟨hi, hsame.trans hfit⟩
  · rw [← Bool.not_eq_true, hopen, hscale]
    exact fun h => Bool.noConfusion h.1

end TopLevelSpec

end ChartLowering
