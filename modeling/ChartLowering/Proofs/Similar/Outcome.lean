import ChartLowering.Error
import Mathlib.Data.List.Forall2

/-
  Two runs with one outcome.

  Two computations have the same outcome if both end with the same error, or both end well, with
  values that are related in a given way. The rules go with how computations are put together: one
  after the other, and one for each item of a list.
-/

namespace ChartLowering

/-- Two results that are the same error, or related values. -/
inductive SameOutcome {ε α β : Type} (R : α → β → Prop) : Except ε α → Except ε β → Prop where
  | ok {a : α} {b : β} (h : R a b) : SameOutcome R (.ok a) (.ok b)
  | error (e : ε) : SameOutcome R (.error e) (.error e)

namespace SameOutcome

variable {ε α β α' β' : Type} {R : α → β → Prop} {S : α' → β' → Prop} {x : Except ε α}
  {y : Except ε β}

theorem of_eq {x y : Except ε α} (h : x = y) : SameOutcome Eq x y := by
  subst h
  cases x with
  | ok a => exact .ok rfl
  | error e => exact .error e

theorem eq {x y : Except ε α} (h : SameOutcome Eq x y) : x = y := by
  cases h with
  | ok hab => rw [hab]
  | error e => rfl

/-- One computation after another. -/
theorem bind {f : α → Except ε α'} {g : β → Except ε β'} (h : SameOutcome R x y)
    (hfg : ∀ a b, R a b → SameOutcome S (f a) (g b)) : SameOutcome S (x >>= f) (y >>= g) := by
  cases h with
  | ok hab => exact hfg _ _ hab
  | error e => exact .error e

theorem map {f : α → α'} {g : β → β'} (h : SameOutcome R x y)
    (hfg : ∀ a b, R a b → S (f a) (g b)) : SameOutcome S (x.map f) (y.map g) := by
  cases h with
  | ok hab => exact .ok (hfg _ _ hab)
  | error e => exact .error e

/-- One computation for each item of a list. -/
theorem mapM {γ δ : Type} {T : γ → δ → Prop} {f : γ → Except ε α} {g : δ → Except ε β}
    (hfg : ∀ c d, T c d → SameOutcome R (f c) (g d)) {cs : List γ} {ds : List δ}
    (h : List.Forall₂ T cs ds) : SameOutcome (List.Forall₂ R) (cs.mapM f) (ds.mapM g) := by
  induction h with
  | nil => exact .ok .nil
  | cons hcd _ ih =>
    rw [List.mapM_cons, List.mapM_cons]
    refine (hfg _ _ hcd).bind fun a b hab => ?_
    exact ih.bind fun as bs hall => .ok (.cons hab hall)

/-- What two computations end with is what they end with. -/
theorem with_results (h : SameOutcome R x y) :
    SameOutcome (fun a b => R a b ∧ x = .ok a ∧ y = .ok b) x y := by
  cases h with
  | ok hab => exact .ok ⟨hab, rfl, rfl⟩
  | error e => exact .error e

/-- Both computations end well, or none does. -/
theorem ok_iff (h : SameOutcome R x y) : (∃ a, x = .ok a) ↔ ∃ b, y = .ok b := by
  cases h with
  | ok hab => exact ⟨fun _ => ⟨_, rfl⟩, fun _ => ⟨_, rfl⟩⟩
  | error e => exact ⟨by rintro ⟨_, ⟨⟩⟩, by rintro ⟨_, ⟨⟩⟩⟩

theorem error_iff (h : SameOutcome R x y) (e : ε) : x = .error e ↔ y = .error e := by
  cases h with
  | ok hab => exact ⟨nofun, nofun⟩
  | error e' => rw [Except.error.injEq, Except.error.injEq]

/-- The values that two computations end with are related. -/
theorem of_ok {a : α} {b : β} (h : SameOutcome R x y) (hx : x = .ok a) (hy : y = .ok b) : R a b := by
  cases h with
  | ok hab =>
    obtain rfl := Except.ok.inj hx
    obtain rfl := Except.ok.inj hy
    exact hab
  | error e => cases hx

end SameOutcome

end ChartLowering
