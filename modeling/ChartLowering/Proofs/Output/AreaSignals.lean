import ChartLowering.Proofs.Output.Concatenation
import ChartLowering.Proofs.Tree.Numbered
import Mathlib.Data.List.Nodup

/-
  Signals of drawing areas.

  A unit or a layer whose parent is no layer is an area of its own (`isArea`). Where no view has a name
  of its own, what is live is the width and the height of every area (`sizeSignals_eq`), and no two
  areas share a name (`nodup_areaSignals`). The value of a signal is the first size that is given in the
  group of units and layers that draw in the area (`groupSize?_eq_findSome?`). Resolving a tree changes
  no signal, so these are those of the document (`area_signals`).
-/

namespace ChartLowering

namespace ViewTree

open View

variable {config : Config} {settings : Settings} {t : ViewTree} {l : Located View} {a : List Nat}

/-! ## Areas -/

/-- Whether a view is a unit or a layer, and its parent is no layer. -/
def isArea (l : Located View) : Bool :=
  l.tree.label.isSized && !l.above.head?.any fun p => p.kind == .layer

theorem areaOf_suffix (a : List Nat) : t.areaOf a <:+ a := by
  induction a with
  | nil => exact List.suffix_rfl
  | cons i a ih =>
    rw [areaOf]
    split
    · exact ih.trans (List.suffix_cons i a)
    · exact List.suffix_rfl

/-- Areas are where the way up along layers ends at once. -/
theorem isArea_iff (hl : t.locate? a = some l) :
    isArea l = true ↔ l.tree.label.isSized = true ∧ t.areaOf a = a := by
  unfold isArea
  rw [Bool.and_eq_true, Bool.not_eq_true']
  refine and_congr_right fun _ => ?_
  cases a with
  | nil =>
    obtain rfl : ⟨t, []⟩ = l := Option.some.inj hl
    exact iff_of_true rfl rfl
  | cons i a =>
    obtain ⟨p, hp, -, hpl⟩ := locate?_parent hl
    have hhead : l.above.head? = some p.tree.label := by rw [hpl]; rfl
    rw [hhead, Option.any_some, beq_eq_false_iff_ne]
    refine ⟨fun h => areaOf_of_not_layer hp h i, fun harea hlayer => ?_⟩
    have hlength := (areaOf_suffix (t := t) a).length_le
    rw [← areaOf_of_layer hp hlayer i, harea, List.length_cons] at hlength
    omega

/-! ## Groups -/

/-- The units and layers that are reached from the root by way of layers only, in the order of the
walk. -/
def groupViews (t : ViewTree) : List View :=
  ((t.walk []).filter fun l =>
    l.tree.label.isSized && l.above.all fun p => p.kind == .layer).map fun l => l.tree.label

theorem groupViews_node (v : View) (kids : List ViewTree) :
    groupViews (.node v kids) =
      (if v.isSized then [v] else []) ++ if v.kind = .layer then kids.flatMap groupViews else [] := by
  have hbelow : ∀ k : ViewTree, ((k.walk [v]).filter fun l =>
      l.tree.label.isSized && l.above.all fun p => p.kind == .layer).map (fun l => l.tree.label) =
        if v.kind = .layer then groupViews k else [] := by
    intro k
    rw [show [v] = [] ++ [v] from rfl, Tree.walk_append, List.filter_map, List.map_map]
    by_cases hlayer : v.kind = .layer
    · simp [hlayer, groupViews, Function.comp_def]
    · simp [hlayer, Function.comp_def]
  have hkids : kids.flatMap (fun k => ((k.walk [v]).filter fun l =>
      l.tree.label.isSized && l.above.all fun p => p.kind == .layer).map fun l => l.tree.label) =
        if v.kind = .layer then kids.flatMap groupViews else [] := by
    rw [List.flatMap_congr fun k _ => hbelow k]
    split
    · rfl
    · exact List.flatMap_eq_nil_iff.2 fun _ _ => rfl
  rw [← hkids, groupViews, Tree.walk_node, List.filter_cons, List.filter_flatMap]
  show List.map _ (if (v.isSized && true) = true then _ else _) = _
  rw [Bool.and_true]
  split
  · rw [List.map_cons, List.map_flatMap]
    rfl
  · rw [List.map_flatMap]
    rfl

theorem groupSizeAll?_eq_findSome? {d : Dimension} {ts : List ViewTree}
    (h : ∀ t ∈ ts, (if t.label.isSized then groupSize? d t else none) =
      (groupViews t).findSome? fun v => v.explicitSize d) :
    groupSizeAll? d ts = (ts.flatMap groupViews).findSome? fun v => v.explicitSize d := by
  induction ts with
  | nil => rfl
  | cons t rest ih =>
    obtain ⟨ht, hrest⟩ := List.forall_mem_cons.1 h
    rw [groupSizeAll?, ht, ih hrest, List.flatMap_cons, List.findSome?_append]

/-- The size of a group is the first one that is given in it. -/
theorem groupSize?_eq_findSome? (d : Dimension) (t : ViewTree) :
    (if t.label.isSized then groupSize? d t else none) =
      (groupViews t).findSome? fun v => v.explicitSize d := by
  induction t using Tree.induction with
  | step v kids ih =>
    rw [groupViews_node, List.findSome?_append, groupSize?, groupSizeAll?_eq_findSome? ih]
    show (if v.isSized then _ else none) = _
    by_cases hsized : v.isSized = true
    · rw [if_pos hsized, if_pos hsized, List.findSome?_singleton]
      split <;> rfl
    · have hlayer : v.kind ≠ .layer := fun h => hsized (isSized_of_layer h)
      rw [if_neg hsized, if_neg hsized, if_neg hlayer]
      rfl

/-! ## Values -/

/-- The value of the signal of an area: the first size that is given in its group, or else what the
chart configures, or else what the settings say. -/
def areaSize (config : Config) (settings : Settings) (d : Dimension) (t : ViewTree) : Json :=
  (((groupViews t).findSome? fun v => v.explicitSize d).or (config.view.size d)).elim
    (settings.continuousSize d) Json.float

theorem defaultSize_eq_areaSize (h : t.label.isSized = true) (d : Dimension) :
    defaultSize config settings d t = areaSize config settings d t := by
  unfold defaultSize areaSize
  rw [← groupSize?_eq_findSome?, if_pos h]
  cases (groupSize? d t).or (config.view.size d) <;> rfl

/-! ## Signals -/

/-- The signals of an area. -/
def areaSignals (config : Config) (settings : Settings) (l : Located View) : List SignalDef :=
  Dimension.all.map fun d => ⟨l.tree.label.partName d.name, areaSize config settings d l.tree⟩

section Unnamed

variable (h : SizeScoped t) (hnumbered : t.Everywhere fun u => NumberedNames (u.map View.name))

include h hnumbered

theorem sizeSignals_eq (hl : l ∈ t.walk []) :
    sizeSignals config settings l = if isArea l then areaSignals config settings l else [] := by
  obtain ⟨a, ha⟩ := Tree.mem_walk_iff_locate?.1 hl
  have hlive : ∀ d, l.tree.label.hasLiveSize l.above d = isArea l := fun d =>
    Bool.eq_iff_iff.2 ((h.hasLiveSize_iff hnumbered ha d).trans (isArea_iff ha).symm)
  unfold sizeSignals areaSignals
  simp only [hlive]
  split
  · rename_i harea
    have hsized := ((isArea_iff ha).1 harea).1
    simp only [defaultSize_eq_areaSize hsized]
    rfl
  · exact List.filterMap_eq_nil_iff.2 fun _ _ => rfl

/-- Signals are defined for the areas, in the order of the walk. -/
theorem signals_eq_areaSignals : t.signals config settings =
    ((t.walk []).filter isArea).flatMap (areaSignals config settings) := by
  rw [signals_eq_flatMap, List.flatMap_congr fun l hl => sizeSignals_eq h hnumbered hl]
  induction t.walk [] with
  | nil => rfl
  | cons l rest ih =>
    rw [List.flatMap_cons, ih, List.filter_cons]
    split
    · rw [List.flatMap_cons]
    · rfl

omit h in
/-- No two areas share the name of a signal. -/
theorem nodup_areaSignals : ((((t.walk []).filter isArea).flatMap
    (areaSignals config settings)).map SignalDef.name).Nodup := by
  rw [List.map_flatMap, List.nodup_flatMap]
  refine ⟨fun l _ => ?_, List.Pairwise.filter isArea (Tree.pairwise_walk ?_)⟩
  · show ((Dimension.all.map _).map SignalDef.name).Nodup
    rw [List.map_map]
    exact (show Dimension.all.Nodup by decide).map fun d e hde => partName_dimension_injective hde
  · intro a b l m hl hm hab
    refine List.disjoint_left.2 fun n hn hn' => ?_
    obtain ⟨s, hs, rfl⟩ := List.mem_map.1 hn
    obtain ⟨d, -, rfl⟩ := List.mem_map.1 hs
    obtain ⟨s', hs', hname⟩ := List.mem_map.1 hn'
    obtain ⟨e, -, rfl⟩ := List.mem_map.1 hs'
    exact partName_ne hnumbered hm hl hab.symm (isOwnPart_dimension e) (isOwnPart_dimension d) hname

end Unnamed

/-- What is defined does not depend on components. -/
theorem signals_map_blank (t : ViewTree) :
    signals config settings (t.map View.blank) = t.signals config settings := by
  have hlive : ∀ (v : View) (above : List View) (d : Dimension),
      v.blank.hasLiveSize (above.map View.blank) d = v.hasLiveSize above d := by
    intro v above d
    have habove : signalScopes (above.map View.blank) = signalScopes above := by
      unfold signalScopes
      rw [List.map_map]
      rfl
    have hblank : v.blank.blank = v.blank := rfl
    unfold hasLiveSize
    rw [sizeSignal_eq hblank habove]
    rfl
  have hvalue : ∀ (t : ViewTree) (d : Dimension),
      defaultSize config settings d (t.map View.blank) = defaultSize config settings d t := by
    intro t d
    unfold defaultSize
    rw [groupSize?_map (f := View.blank) (fun _ => rfl) fun _ d => by cases d <;> rfl]
  unfold signals
  rw [Tree.walk_map_nil, List.flatMap_map]
  simp only [Tree.label_map, hlive, hvalue]
  rfl

end ViewTree

namespace TopLevelSpec

open ViewTree View

/-- Where no view has a name of its own, the signals that are defined once sizes are shared are the
widths and heights of areas, each of them once and in the order of the walk. The size of a unit or a
layer goes by the signal of the topmost view that is reached from it by way of layers. The value of a
signal is the first size that is given in the area, or else what the chart configures, or else what the
settings say. The document defines the same signals. -/
theorem area_signals (settings : Settings) {t : TopLevelSpec} (hunnamed : t.view.Unnamed) :
    t.laidOut.signals t.config settings = ((t.laidOut.walk []).filter isArea).flatMap (fun l =>
      Dimension.all.map fun d =>
        ⟨l.tree.label.partName d.name, areaSize t.config settings d l.tree⟩) ∧
    ((t.laidOut.signals t.config settings).map SignalDef.name).Nodup ∧
    (∀ a l, t.laidOut.locate? a = some l → l.tree.label.isSized = true →
      ∃ m, t.laidOut.locate? (t.laidOut.areaOf a) = some m ∧ isArea m = true ∧
        ∀ d, l.tree.label.sizeSignal l.above d = m.tree.label.partName d.name) ∧
    ∀ d, t.compile settings = .ok d → d.signals = t.laidOut.signals t.config settings := by
  have h := sizeScoped_laidOut t
  have hnumbered := numbered_laidOut hunnamed
  have hsignals : t.laidOut.signals t.config settings =
      ((t.laidOut.walk []).filter isArea).flatMap (areaSignals t.config settings) :=
    signals_eq_areaSignals h hnumbered
  refine ⟨hsignals, ?_, ?_, ?_⟩
  · rw [hsignals]
    exact nodup_areaSignals hnumbered
  · intro a l hl hsized
    obtain ⟨m, hm, hmsized, hsize⟩ := h.sizeSignal_area hnumbered a l hl hsized
    exact ⟨m, hm, (isArea_iff hm).2 ⟨hmsized, areaOf_areaOf a⟩, hsize⟩
  · intro d hd
    rw [signals_of_compile hd, ← signals_map_blank, map_blank_resolved, signals_map_blank]

/-- In a facet a map over one that is 70 wide and lies in a layer of its own, and a map beside it. -/
def layersInFacet : TopLevelSpec :=
  let bare : ViewBase := ⟨none, none, none, none⟩
  let wide : ViewBase := ⟨none, none, some (.ofRatio false 70 1), none⟩
  let origin : ChannelDef := ⟨.field "origin", some .nominal, none, .unset, .unset, .empty⟩
  ⟨.concat bare [.facet bare ⟨none, some origin, none⟩ (.layer bare
      [.unit bare rowsMap, .layer bare [.unit wide rowsMap] .silent] .silent) .silent,
    .unit bare rowsMap] .horizontal .silent, .empty, .plain⟩

/-- The layers have one width, which is given in the innermost one, and the map beside them has that
of the settings. -/
theorem area_signals_layersInFacet :
    layersInFacet.laidOut.signals layersInFacet.config .standard =
      [⟨"concat_0_child_width", .float (.ofRatio false 70 1)⟩, ⟨"concat_0_child_height", .int 300⟩,
        ⟨"concat_1_width", .int 300⟩, ⟨"concat_1_height", .int 300⟩] ∧
    ∃ l, layersInFacet.laidOut.locate? [0, 1, 0, 0] = some l ∧
      l.tree.label.sizeSignal l.above .width = "concat_0_child_width" := by
  obtain ⟨hsignals, -, hsize, -⟩ := area_signals .standard (t := layersInFacet) (by decide)
  have hareas : ((layersInFacet.laidOut.walk []).filter isArea).flatMap (fun l =>
      Dimension.all.map fun d => (⟨l.tree.label.partName d.name,
        areaSize layersInFacet.config .standard d l.tree⟩ : SignalDef)) =
      [⟨"concat_0_child_width", .float (.ofRatio false 70 1)⟩, ⟨"concat_0_child_height", .int 300⟩,
        ⟨"concat_1_width", .int 300⟩, ⟨"concat_1_height", .int 300⟩] := by
    decide +kernel
  have hunit : (layersInFacet.laidOut.locate? [0, 1, 0, 0]).any
      (fun l => l.tree.label.isSized) = true := by
    decide +kernel
  have harea : (layersInFacet.laidOut.locate? (layersInFacet.laidOut.areaOf [0, 1, 0, 0])).map
      (fun m => m.tree.label.partName Dimension.width.name) = some "concat_0_child_width" := by
    decide +kernel
  obtain ⟨l, hl, hsized⟩ := (Option.any_eq_true _ _).1 hunit
  obtain ⟨m, hm, -, hname⟩ := hsize _ l hl hsized
  rw [hm] at harea
  exact ⟨hsignals.trans hareas, l, hl, (hname .width).trans (Option.some.inj harea)⟩

end TopLevelSpec

end ChartLowering
