import ChartLowering.Proofs.Dataset.Refusals
import Mathlib.Data.List.Induction

/-
  Which outputs and signals the datasets back.

  A compile that refuses no data registers all views. Linking then gives every output a concrete
  dataset, so an output or a signal is backed if and only if some view has registered it
  (`Registered.backsViews`), and a fit has the expressions of those of its sources that are backed
  (`mem_fitExpressions`).
-/

namespace ChartLowering

namespace Registry

variable {r₀ r : Registry} {views : List View}

/-! ## Linking -/

/-- Whether what a registry backs is what some views have registered. -/
structure BacksViews (r : Registry) (views : List View) : Prop where
  backs : ∀ n, r.backs n = true ↔ ∃ v ∈ views, v.hasOutput = true ∧ v.mainOutput = n
  produces : ∀ n, r.produces n = true ↔ ∃ v ∈ views, n ∈ v.extracted

theorem Registered.backsViews (h : Registered r₀ r views) : r.link.BacksViews views where
  backs := fun _ => h.backs_link_iff.trans h.mem_outputs_keys
  produces := by
    intro n
    obtain ⟨_, _, hlink⟩ := link_frame _
    have hsignals : r.link.signals = r.signals := by rw [hlink]
    rw [produces, List.contains_iff_mem, hsignals, h.signals, List.mem_flatMap]

/-! ## Fits to what is backed -/

/-- The next source adds its expression unless it is there. -/
theorem fitExpressions_concat (r : Registry) (sources : List FitSource) (s : FitSource) :
    r.fitExpressions (sources ++ [s]) =
      match r.fitExpression? s with
      | none => r.fitExpressions sources
      | some e =>
        if e ∈ r.fitExpressions sources then r.fitExpressions sources
        else r.fitExpressions sources ++ [e] := by
  unfold fitExpressions
  rw [List.filterMap_append, List.foldl_append]
  cases hs : r.fitExpression? s with
  | none => rw [List.filterMap_cons_none hs]; rfl
  | some e => rw [List.filterMap_cons_some hs]; rfl

/-- The expressions of sources are those of the single sources. -/
theorem mem_fitExpressions {sources : List FitSource} {e : String} :
    e ∈ r.fitExpressions sources ↔ ∃ s ∈ sources, r.fitExpression? s = some e := by
  induction sources using List.reverseRecOn with
  | nil => exact iff_of_false List.not_mem_nil fun ⟨_, hs, _⟩ => List.not_mem_nil hs
  | append_singleton sources s ih =>
    have hstep : e ∈ r.fitExpressions (sources ++ [s]) ↔
        e ∈ r.fitExpressions sources ∨ r.fitExpression? s = some e := by
      rw [fitExpressions_concat]
      cases r.fitExpression? s with
      | none => simp
      | some a =>
        dsimp only
        by_cases ha : a ∈ r.fitExpressions sources
        · rw [if_pos ha]
          exact ⟨Or.inl, fun h => h.elim id fun hae => Option.some.inj hae ▸ ha⟩
        · rw [if_neg ha, List.mem_append, List.mem_singleton, Option.some.injEq, eq_comm]
    rw [hstep, ih]
    simp only [List.mem_append, List.mem_singleton, or_and_right, exists_or, exists_eq_left]

theorem fitExpressions_eq_nil_iff {sources : List FitSource} :
    r.fitExpressions sources = [] ↔ ∀ s ∈ sources, r.fitExpression? s = none := by
  rw [List.eq_nil_iff_forall_not_mem]
  simp only [mem_fitExpressions, not_exists, not_and]
  constructor
  · exact fun h s hs => Option.eq_none_iff_forall_ne_some.2 fun e => h e s hs
  · intro h e s hs
    simp [h s hs]

theorem fitExpression?_signal {n : String} :
    r.fitExpression? (.signal n .empty) = none ↔ ¬ r.produces n = true := by
  unfold fitExpression?
  split <;> simp_all

theorem fitExpression?_output {n : String} :
    r.fitExpression? (.output n) = none ↔ ¬ r.backs n = true := by
  unfold fitExpression? backs OrderedMap.contains
  rw [Option.map_eq_none_iff, Bool.not_eq_true, Option.isSome_eq_false_iff,
    Option.isNone_iff_eq_none]

end Registry

namespace TopLevelSpec

/-- A compile that refuses no data has datasets, and these back the outputs of the views that have one,
and the signals that are extracted. -/
theorem exists_backing {settings : Settings} {t : TopLevelSpec}
    (h : t.firstRefusal? settings = none) :
    ∃ r, t.registered settings = .ok r ∧ r.link.BacksViews (t.resolved settings).labels := by
  obtain ⟨r, hr⟩ := exists_registered h
  exact ⟨r, hr, (registered_eq_ok hr).backsViews⟩

end TopLevelSpec

end ChartLowering
