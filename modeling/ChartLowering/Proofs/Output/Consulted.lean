import ChartLowering.Proofs.Dataset.Names
import ChartLowering.Proofs.Output.Components
import ChartLowering.Proofs.Output.Marks
import ChartLowering.Proofs.Sharing.Contributors

/-
  What a document consults.

  A dataset is consulted by the marks that read it, by the facets that repeat their groups over it,
  and by the projections that are fit to its rows; projections also ask for outputs before there are
  any datasets, under the outputs' names. The marks of a tree consult what its views do, one view
  after the other (`consultationsAll_marks`).
-/

namespace ChartLowering

namespace Mark

/-- The dataset that a mark reads, or repeats its group over. -/
def dataset? : Mark → Option String
  | .item _ _ data _ _ => data
  | .group _ facet _ _ => facet.map FacetRows.data

mutual

theorem consultations_eq_filterMap : ∀ m : Mark, m.consultations = m.nested.filterMap dataset?
  | .item name type data update shape => by
    rw [consultations, nested]
    cases data <;> rfl
  | .group name facet size marks => by
    rw [consultations, nested, consultationsAll_eq_filterMap marks]
    cases facet <;> rfl

/-- Marks consult the datasets of all marks in them, in order. -/
theorem consultationsAll_eq_filterMap :
    ∀ marks : List Mark, consultationsAll marks = (nestedAll marks).filterMap dataset?
  | [] => rfl
  | m :: rest => by
    rw [consultationsAll, nestedAll, List.filterMap_append, consultations_eq_filterMap m,
      consultationsAll_eq_filterMap rest]

end

theorem consultationsAll_append (l m : List Mark) :
    consultationsAll (l ++ m) = consultationsAll l ++ consultationsAll m := by
  induction l with
  | nil => rfl
  | cons a rest ih => rw [List.cons_append, consultationsAll, consultationsAll, ih,
      List.append_assoc]

end Mark

/-- The dataset that the mark of a view consults. -/
def View.consulted? (r : Registry) (v : View) : Option String :=
  match v.form with
  | .unit _ => v.data.map fun _ => r.concreteName v.mainOutput
  | .facet _ _ => if r.backs v.mainOutput then some (r.concreteName v.mainOutput) else none
  | _ => none

/-- The datasets that the live projections of a view consult. -/
def View.fitConsulted (r : Registry) (v : View) : List String :=
  (v.liveComponents .projection).flatMap fun e => r.fitConsultations (e.2.data.getD [])

/-- The output among the fit sources of a unit is its own. -/
theorem View.eq_of_output_mem_fitSources {v : View} {u : UnitSpec} {n : String}
    (h : .output n ∈ v.fitSources u) : n = v.mainOutput := by
  unfold View.fitSources at h
  split at h
  · exact FitSource.output.inj (List.mem_singleton.1 h)
  · obtain ⟨e, -, he⟩ := List.mem_map.1 h
    cases he

theorem View.consulted_componentLists {r : Registry} {v : View} {above : List View}
    {lists : ComponentLists} (h : v.componentLists r above = .ok lists) :
    lists.consulted = v.fitConsulted r := by
  unfold View.componentLists at h
  obtain ⟨axes, -, h⟩ := bind_eq_ok.1 h
  obtain ⟨legends, -, h⟩ := bind_eq_ok.1 h
  obtain ⟨projections, -, h⟩ := bind_eq_ok.1 h
  rw [← Except.ok.inj h]
  rfl

namespace ViewTree

variable {r : Registry} {above : List View}

theorem consultations_unitMark (v : View) (above : List View) (u : UnitSpec)
    (data : Option String) : (v.unitMark above u data).consultations = data.toList := by
  obtain ⟨type, update, shape, h⟩ := unitMark_eq_item v above u data
  rw [h, Mark.consultations]

theorem consultationsAll_marksAll (r : Registry) (above : List View) (ts : List ViewTree) :
    Mark.consultationsAll (marksAll r above ts) =
      ts.flatMap fun t => Mark.consultationsAll (marks r above t) := by
  induction ts with
  | nil => rfl
  | cons t rest ih => rw [marksAll, Mark.consultationsAll_append, ih, List.flatMap_cons]

/-- The group of a view in a concatenation consults nothing itself. -/
theorem consultationsAll_groups (r : Registry) (above : List View) (ts : List ViewTree) :
    Mark.consultationsAll (groups r above ts) =
      ts.flatMap fun t => Mark.consultationsAll (marks r above t) := by
  induction ts with
  | nil => rfl
  | cons t rest ih =>
    rw [groups, Mark.consultationsAll, ih, List.flatMap_cons, View.concatGroup, Mark.consultations]
    rfl

/-- The marks of a view consult what the view does, and then what those of its children do. -/
theorem consultationsAll_node {v : View} {kids : List ViewTree}
    (hleaf : ∀ u, v.form = .unit u → kids = []) :
    Mark.consultationsAll (marks r above (.node v kids)) = (v.consulted? r).toList ++
      kids.flatMap fun t => Mark.consultationsAll (marks r (v :: above) t) := by
  rw [marks, View.consulted?]
  cases hform : v.form with
  | unit u =>
    obtain rfl : kids = [] := hleaf u hform
    simp only
    rw [Mark.consultationsAll, Mark.consultationsAll, consultations_unitMark]
    rfl
  | layer resolve => exact consultationsAll_marksAll r (v :: above) kids
  | concat resolve => exact consultationsAll_groups r (v :: above) kids
  | facet m resolve =>
    simp only
    rw [Mark.consultationsAll, Mark.consultationsAll, Mark.consultations,
      consultationsAll_marksAll, List.append_nil, View.facetRows?]
    split <;> rfl

/-- The marks of a tree consult what its views do, in the order of the walk. -/
theorem consultationsAll_marks {t : ViewTree}
    (hleaf : ∀ l ∈ t.walk above, ∀ u, l.tree.label.form = .unit u → l.tree.children = []) :
    Mark.consultationsAll (marks r above t) =
      (t.walk above).filterMap fun l => l.tree.label.consulted? r := by
  induction t using Tree.induction generalizing above with
  | step v kids ih =>
    have hunit : ∀ u, v.form = .unit u → kids = [] := hleaf _ (Tree.self_mem_walk above _)
    rw [consultationsAll_node hunit, Tree.walk_node, List.filterMap_cons]
    have hkids : (kids.flatMap fun t => Mark.consultationsAll (marks r (v :: above) t)) =
        (kids.flatMap (Tree.walk (v :: above))).filterMap fun l => l.tree.label.consulted? r := by
      rw [List.filterMap_flatMap]
      refine List.flatMap_congr fun t ht => ih t ht fun l hl => hleaf l ?_
      exact Tree.mem_walk.2 (Or.inr ⟨t, ht, hl⟩)
    rw [hkids]
    simp only [Tree.label]
    cases v.consulted? r <;> rfl

/-! ## Documents -/

theorem consulted_componentLists {walk : List (Located View)} {lists : ComponentLists}
    (h : componentLists r walk = .ok lists) :
    lists.consulted = walk.flatMap fun l => l.tree.label.fitConsulted r := by
  induction walk generalizing lists with
  | nil =>
    rw [← Except.ok.inj h]
    rfl
  | cons l rest ih =>
    unfold componentLists at h
    obtain ⟨here, hhere, h⟩ := bind_eq_ok.1 h
    obtain ⟨others, hothers, h⟩ := bind_eq_ok.1 h
    rw [← Except.ok.inj h, List.flatMap_cons, ← ih hothers, ← View.consulted_componentLists hhere]
    rfl

/-- The datasets of a document are those that its projections and its marks consult. -/
theorem data_assemble {config : Config} {settings : Settings} {t : ViewTree}
    {result : Document × Registry} (h : t.assemble config settings r = .ok result) :
    result.1.marks = t.marks r [] ∧
      result.1.data = (r.note (((t.walk []).flatMap fun l => l.tree.label.fitConsulted r) ++
        Mark.consultationsAll result.1.marks)).emit t.projectionSeenFrom := by
  unfold assemble at h
  obtain ⟨lists, hlists, h⟩ := bind_eq_ok.1 h
  rw [← Except.ok.inj h, ← consulted_componentLists hlists]
  exact ⟨rfl, rfl⟩

/-- Units have no children. -/
theorem IsResolved.leaf {config : Config} {settings : Settings} {t : ViewTree}
    (h : IsResolved config settings t) :
    ∀ l ∈ t.walk [], ∀ u, l.tree.label.form = .unit u → l.tree.children = [] :=
  fun l hl u hform => ((h.settled l hl).unit u hform).1

/-- The outputs that projections ask for are those of views. -/
theorem IsResolved.requestedOutputs_subset {config : Config} {settings : Settings} {t : ViewTree}
    (h : IsResolved config settings t) : t.requestedOutputs ⊆ t.labels.map View.mainOutput := by
  intro n hn
  obtain ⟨v, hv, hn⟩ := List.mem_flatMap.1 hn
  obtain ⟨l, hl, rfl⟩ := List.mem_map.1 hv
  refine List.mem_map.2 ⟨_, hv, ?_⟩
  split at hn
  · rename_i u k hform hk
    obtain ⟨source, hsource, hn⟩ := List.mem_filterMap.1 hn
    cases hdata : k.data with
    | none => rw [hdata] at hsource; exact absurd hsource List.not_mem_nil
    | some sources =>
      rw [hdata] at hsource
      have hsources : sources = l.tree.label.fitSources u :=
        (h.settled l hl).data_unit hform hk hdata
      rw [hsources] at hsource
      cases source with
      | output m =>
        obtain rfl : m = n := Option.some.inj hn
        exact (View.eq_of_output_mem_fitSources hsource).symm
      | signal m j => cases hn
      | unusable j => cases hn
  · exact absurd hn List.not_mem_nil

end ViewTree

end ChartLowering
