import ChartLowering.Proofs.Output.Components
import ChartLowering.Proofs.Similar.Outcome

/-
  Documents with corresponding entries.

  Views whose live components are written out alike, one by one, are completed alike: with the same
  error, or with entries that correspond in every family (`componentLists_outcome`).
-/

namespace ChartLowering

namespace ComponentLists

/-- Whether the entries of two documents correspond, family by family. -/
def Related (P : Family → Fields → Fields → Prop) (a b : ComponentLists) : Prop :=
  ∀ f, List.Forall₂ (P f) (a.entries f) (b.entries f)

variable {P : Family → Fields → Fields → Prop} {a b a' b' : ComponentLists}

theorem entries_append (a b : ComponentLists) (f : Family) :
    (a.append b).entries f = a.entries f ++ b.entries f := by
  cases f <;> rfl

theorem related_empty : Related P .empty .empty := fun f => by cases f <;> exact .nil

theorem Related.append (h : Related P a b) (h' : Related P a' b') :
    Related P (a.append a') (b.append b') := by
  intro f
  rw [entries_append, entries_append]
  exact List.rel_append (h f) (h' f)

end ComponentLists

namespace View

variable {P : Family → Fields → Fields → Prop} {r r' : Registry} {v w : View}
  {above above' : List View}

theorem componentLists_outcome
    (h : ∀ f, List.Forall₂ (SameOutcome (P f)) (v.liveEntries r above f)
      (w.liveEntries r' above' f)) :
    SameOutcome (ComponentLists.Related P) (v.componentLists r above)
      (w.componentLists r' above') := by
  have hlive : ∀ f, List.Forall₂ (fun e e' => SameOutcome (P f) (v.entry r above ⟨f, e.1⟩ e.2)
      (w.entry r' above' ⟨f, e'.1⟩ e'.2)) (v.liveComponents f) (w.liveComponents f) := by
    intro f
    rw [← List.forall₂_map_right_iff, ← List.forall₂_map_left_iff]
    exact h f
  have hscales : List.Forall₂ (P .scale) ((v.liveComponents .scale).map fun e => e.2.combine)
      ((w.liveComponents .scale).map fun e => e.2.combine) := by
    rw [List.forall₂_map_left_iff, List.forall₂_map_right_iff]
    exact (hlive .scale).imp fun _ _ hentry => hentry.of_ok rfl rfl
  have hmapM : ∀ f, SameOutcome (List.Forall₂ (P f))
      ((v.liveComponents f).mapM fun e => v.entry r above ⟨f, e.1⟩ e.2)
      ((w.liveComponents f).mapM fun e => w.entry r' above' ⟨f, e.1⟩ e.2) := fun f =>
    .mapM (fun _ _ he => he) (hlive f)
  unfold componentLists
  refine (hmapM .axis).bind fun axes axes' haxes => ?_
  refine (hmapM .legend).bind fun legends legends' hlegends => ?_
  refine (hmapM .projection).bind fun projections projections' hprojections => ?_
  refine .ok fun f => ?_
  cases f with
  | projection => exact hprojections
  | scale => exact hscales
  | axis => exact haxes
  | legend => exact hlegends

end View

namespace ViewTree

variable {P : Family → Fields → Fields → Prop} {r r' : Registry}

theorem componentLists_outcome {views views' : List (Located View)}
    (h : List.Forall₂ (fun l m => ∀ f, List.Forall₂ (SameOutcome (P f))
      (l.tree.label.liveEntries r l.above f) (m.tree.label.liveEntries r' m.above f)) views views') :
    SameOutcome (ComponentLists.Related P) (componentLists r views) (componentLists r' views') := by
  induction h with
  | nil => exact .ok ComponentLists.related_empty
  | cons hl _ ih =>
    rw [componentLists, componentLists]
    refine (View.componentLists_outcome hl).bind fun here here' hhere => ?_
    exact ih.bind fun rest rest' hrest => .ok (hhere.append hrest)

end ViewTree

end ChartLowering
