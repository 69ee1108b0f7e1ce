import ChartLowering.Flow.Geometry
import ChartLowering.Proofs.Names.Placed

/-
  Generated names are distinct.

  Names are plain texts: the positions of a view and of the views above it, joined by underscores,
  with a suffix for the part that is named. No registry keeps them apart. Where no view has a name of
  its own they are different all the same, in a view because its parts have different suffixes, and in
  different views because no suffix opens like the position of a view below (`IsSuffix.isOwnPart`).
-/

namespace ChartLowering

/-- The suffixes of the names that a compile generates: those of components, sizes, outputs, marks
and their groups, geometry signals and projected positions. -/
inductive IsSuffix : String → Prop where
  | component (f : Family) (c : Option Channel) (h : c ∈ f.slots) : IsSuffix (f.suffix c)
  | size (d : Dimension) : IsSuffix d.name
  | output (k : OutputKind) : IsSuffix k.name
  | marks : IsSuffix "marks"
  | group : IsSuffix "group"
  | cell : IsSuffix "cell"
  | facet : IsSuffix "facet"
  | geometry (i : Nat) : IsSuffix (geometrySuffix i)
  | horizontal (pair : String × Channel × Channel) (h : pair ∈ Channel.geoPairs) :
      IsSuffix ("x" ++ pair.1)
  | vertical (pair : String × Channel × Channel) (h : pair ∈ Channel.geoPairs) :
      IsSuffix ("y" ++ pair.1)

namespace ViewTree

/-- A number behind a text makes no position of it, unless the text is the beginning of one. -/
theorem isOwnPart_append_toString {s : String} (hs : IsOwnPart s) (hne : s ≠ "")
    (hopens : ∀ stem ∈ positionStems, ¬ s.toList <+: stem.toList) (i : Nat) :
    IsOwnPart (s ++ toString i) := by
  refine ⟨Text.isPart_append_toString hs.1 hne i, fun stem hstem hprefix => ?_⟩
  rw [String.toList_append] at hprefix
  rcases List.prefix_or_prefix_of_prefix hprefix (List.prefix_append _ _) with h | h
  · exact hs.2 stem hstem h
  · exact hopens stem hstem h

theorem isOwnPart_component : ∀ f ∈ Family.all, ∀ c ∈ f.slots, IsOwnPart (f.suffix c) := by
  decide +kernel

theorem isOwnPart_geometrySuffix (i : Nat) : IsOwnPart (geometrySuffix i) :=
  isOwnPart_append_toString (s := "geojson_") (by decide +kernel) (by decide) (by decide +kernel) i

theorem isOwnPart_positions : ∀ pair ∈ Channel.geoPairs,
    IsOwnPart ("x" ++ pair.1) ∧ IsOwnPart ("y" ++ pair.1) := by
  decide +kernel

end ViewTree

open ViewTree in
/-- No suffix is a part of a view further below. -/
theorem IsSuffix.isOwnPart {s : String} (h : IsSuffix s) : IsOwnPart s := by
  cases h with
  | component f c hc => exact isOwnPart_component f (by cases f <;> decide) c hc
  | size d => cases d <;> decide +kernel
  | output k => cases k <;> decide +kernel
  | marks | group | cell | facet => decide +kernel
  | geometry i => exact isOwnPart_geometrySuffix i
  | horizontal pair hpair => exact (isOwnPart_positions pair hpair).1
  | vertical pair hpair => exact (isOwnPart_positions pair hpair).2

namespace TopLevelSpec

open ViewTree View

/-- Where no view has a name of its own, a view and a suffix have a name that no other view has with
any suffix, nor the same view with another suffix. -/
theorem names_distinct (settings : Settings) {t : TopLevelSpec} (hunnamed : t.view.Unnamed)
    {a b : List Nat} {l m : Located View} (hl : (t.resolved settings).locate? a = some l)
    (hm : (t.resolved settings).locate? b = some m) {p q : String} (hp : IsSuffix p)
    (hq : IsSuffix q) (hne : (a, p) ≠ (b, q)) :
    l.tree.label.partName p ≠ m.tree.label.partName q := by
  have hnumbered := numbered_resolved settings hunnamed
  by_cases hab : a = b
  · subst hab
    obtain rfl : l = m := Option.some.inj (hl.symm.trans hm)
    -- the view is the same one, so the suffixes differ
    intro heq
    have hpq : p = q := Text.qualified_injective hp.isOwnPart.1 hq.isOwnPart.1 heq
    exact hne (by rw [hpq])
  · exact partName_ne hnumbered hl hm hab hp.isOwnPart hq.isOwnPart

/-- Layers beside a facet of a unit. -/
def layersBesideFacet : TopLevelSpec :=
  let bare : ViewBase := ⟨none, none, none, none⟩
  let points : ViewSpec := .unit bare ⟨⟨"point", .empty⟩, .empty, none⟩
  let origin : ChannelDef := ⟨.field "origin", some .nominal, none, .unset, .unset, .empty⟩
  ⟨.concat bare [.layer bare [points, points] .silent,
    .facet bare ⟨none, some origin, none⟩ points .silent] .horizontal .silent, .empty, .plain⟩

/-- The scale of a layer and the geometry of the view in a facet have different names. -/
theorem names_distinct_layersBesideFacet : ∃ l m,
    (layersBesideFacet.resolved .standard).locate? [1, 0] = some l ∧
    (layersBesideFacet.resolved .standard).locate? [0, 1] = some m ∧
    l.tree.label.partName "x" = "concat_0_layer_1_x" ∧
    m.tree.label.partName (geometrySuffix 0) = "concat_1_child_geojson_0" ∧
    l.tree.label.partName "x" ≠ m.tree.label.partName (geometrySuffix 0) := by
  have hboth : ((layersBesideFacet.resolved .standard).locate? [1, 0]).map
        (fun l => l.tree.label.partName "x") = some "concat_0_layer_1_x" ∧
      ((layersBesideFacet.resolved .standard).locate? [0, 1]).map
        (fun m => m.tree.label.partName (geometrySuffix 0)) = some "concat_1_child_geojson_0" := by
    decide +kernel
  obtain ⟨l, hl, hx⟩ := Option.map_eq_some_iff.1 hboth.1
  obtain ⟨m, hm, hgeometry⟩ := Option.map_eq_some_iff.1 hboth.2
  refine ⟨l, m, hl, hm, hx, hgeometry, ?_⟩
  exact names_distinct .standard (by decide) hl hm (.component .scale (some .x) (by decide))
    (.geometry 0) (by decide)

end TopLevelSpec

end ChartLowering
