import ChartLowering.Proofs.Output.Marks
import ChartLowering.Proofs.Similar.Datasets

/-
  Marks and signals of a sketched tree.

  The marks and the signals of a tree, the datasets that its projections ask for, and the names that
  projections have as seen from its views read of the views what their sketches keep. So all of them
  are the same for the tree of the sketches.
-/

namespace ChartLowering

variable {p : Place}

namespace View

variable (v : View) (above : List View) (u : UnitSpec)

theorem scaleName?_sketch (c : Channel) :
    (v.sketch p).scaleName? (above.map (sketch p)) c = v.scaleName? above c := by
  unfold scaleName?
  simp only [component?_sketch, lookup_sketch, Option.map_map]
  rfl

theorem projectionName?_sketch :
    (v.sketch p).projectionName? (above.map (sketch p)) = v.projectionName? above := by
  unfold projectionName?
  simp only [component?_sketch, lookup_sketch, Option.map_map]
  rfl

theorem update_sketch (skip : List Channel) :
    (v.sketch p).update (above.map (sketch p)) (u.sketch p) skip = v.update above u skip := by
  unfold update
  simp only [scaleName?_sketch]
  show List.foldl _ _ (u.encoding.entries.map fun e => (e.1, e.2.sketch p)) = _
  rw [List.foldl_map]
  congr 1
  funext acc e
  obtain ⟨c, e⟩ := e
  have hmark : (u.sketch p).mark.type = u.mark.type := rfl
  rw [hmark]
  cases e <;> cases markProperty? u.mark.type c <;> rfl

theorem symbolUpdate_sketch :
    (v.sketch p).symbolUpdate (above.map (sketch p)) (u.sketch p) = v.symbolUpdate above u := by
  have hpositions : ∀ update, (v.sketch p).projectedPositions (u.sketch p) update =
      v.projectedPositions u update := by
    intro update
    unfold projectedPositions
    rw [UnitSpec.coordinatePairs_sketch]
    rfl
  unfold symbolUpdate
  simp only [update_sketch, projectionName?_sketch, hpositions]
  rfl

theorem unitMark_sketch (data : Option String) :
    (v.sketch p).unitMark (above.map (sketch p)) (u.sketch p) data = v.unitMark above u data := by
  unfold unitMark
  simp only [update_sketch, symbolUpdate_sketch, projectionName?_sketch, UnitSpec.shapeField?_sketch]
  rfl

theorem concatGroup_sketch (marks : List Mark) :
    (v.sketch p).concatGroup (above.map (sketch p)) marks = v.concatGroup above marks := by
  unfold concatGroup
  have hlive : (v.sketch p).hasLiveSize (above.map (sketch p)) = v.hasLiveSize above :=
    funext (v.hasLiveSize_sketch above)
  rw [hlive]
  simp only [sizeSignal_sketch]
  rfl

end View

namespace ViewTree

open View

variable (t : ViewTree)

theorem marks_sketch (r : Registry) (above : List View) :
    marks r.outline (above.map (sketch p)) (t.map (sketch p)) = marks r above t := by
  induction t using Tree.induction generalizing above with
  | step v kids ih =>
    have hall : ∀ k ∈ kids, marks r.outline ((v :: above).map (sketch p)) (k.map (sketch p)) =
        marks r (v :: above) k := fun k hk => ih k hk (v :: above)
    have hform : (v.sketch p).form = v.form.sketch p := rfl
    rw [Tree.map_node, marks, marks, hform, marksAll_eq_flatMap, marksAll_eq_flatMap, groups_eq_map,
      groups_eq_map, List.flatMap_map, List.map_map, ← List.map_cons, List.flatMap_congr hall]
    cases v.form with
    | unit u =>
      show [(v.sketch p).unitMark _ (u.sketch p) ((v.data.map _).map _)] = _
      rw [unitMark_sketch, Option.map_map]
      rfl
    | layer r => rfl
    | facet m r =>
      show [Mark.group _ ((v.sketch p).facetRows? _ m.sketch) _ _] = _
      unfold facetRows?
      rw [FacetMapping.fields_sketch]
      rfl
    | concat r =>
      refine List.map_congr_left fun k hk => ?_
      show (k.map (sketch p)).label.concatGroup _ (marks _ _ (k.map (sketch p))) = _
      rw [hall k hk, Tree.label_map, concatGroup_sketch]

theorem groupSize?_sketch (d : Dimension) : groupSize? d (t.map (sketch p)) = groupSize? d t := by
  induction t using Tree.induction with
  | step v kids ih =>
    have hall : ∀ ts : List ViewTree, (∀ k ∈ ts, groupSize? d (k.map (sketch p)) = groupSize? d k) →
        groupSizeAll? d (ts.map (Tree.map (sketch p))) = groupSizeAll? d ts := by
      intro ts hts
      induction ts with
      | nil => rfl
      | cons k rest ihrest =>
        obtain ⟨hk, hrest⟩ := List.forall_mem_cons.1 hts
        rw [List.map_cons, groupSizeAll?, groupSizeAll?, hk, ihrest hrest, Tree.label_map,
          isSized_sketch]
    rw [Tree.map_node, groupSize?, groupSize?, hall kids ih, kind_sketch]
    rfl

theorem signals_sketch (config : Config) (settings : Settings) :
    signals (config.sketch p) settings (t.map (sketch p)) = signals config settings t := by
  have hsize : ∀ (d : Dimension) (u : ViewTree),
      defaultSize (config.sketch p) settings d (u.map (sketch p)) =
        defaultSize config settings d u := by
    intro d u
    unfold defaultSize
    rw [groupSize?_sketch]
    rfl
  unfold signals
  rw [Tree.walk_map_nil, List.flatMap_map]
  refine List.flatMap_congr fun l _ => List.filterMap_congr fun d _ => ?_
  simp only [Tree.label_map, hasLiveSize_sketch, hsize]
  rfl

theorem projectionSeenFrom_sketch :
    projectionSeenFrom (t.map (sketch p)) = projectionSeenFrom t := by
  funext index name
  unfold projectionSeenFrom
  rw [Tree.walk_map_nil, List.getElem?_map]
  cases (t.walk [])[index]? with
  | none => rfl
  | some l =>
    simp only [Option.map_some, Tree.label_map]
    exact l.tree.label.lookup_sketch l.above .projection name

theorem requestedOutputs_sketch :
    requestedOutputs (t.map (sketch p)) = requestedOutputs t := by
  unfold requestedOutputs
  rw [Tree.labels_map, List.flatMap_map]
  refine List.flatMap_congr fun v _ => ?_
  have hform : (v.sketch p).form = v.form.sketch p := rfl
  rw [component?_sketch, hform]
  cases v.form <;> cases v.component? .projection none <;> rfl

end ViewTree

end ChartLowering
