import ChartLowering.Json.Basic
import Mathlib.Algebra.Order.Field.Rat
import Mathlib.Algebra.GroupWithZero.Basic
import Mathlib.Tactic.NormNum
import Mathlib.Tactic.Linarith
import Mathlib.Tactic.Ring

/-
  Equality of values, by value.

  `Number.value?` is what a number counts as in a comparison: a rational, or an infinity; `nan`
  counts as nothing. Two numbers are the same exactly if they count as one thing
  (`Number.same_iff`), whichever kinds they are of, so equality by value can be chained
  (`Json.same_trans`), through lists and objects too. It is not reflexive: `nan` equals nothing.
  `Json.Matches` therefore also lets a value match itself, and so do lists and objects for what they
  hold: a member is as good as an equal one if it is the very same `nan` (`sameMember_iff`).
-/

namespace ChartLowering

/-! ## Numbers -/

/-- A rational number or an infinity. -/
inductive Extended where
  | finite (q : ℚ)
  | infinity (negative : Bool)

theorem Extended.exists_common {a b : Extended} :
    (∃ v, some a = some v ∧ some b = some v) ↔ a = b := by
  constructor
  · rintro ⟨v, ha, hb⟩
    exact Option.some.inj (ha.trans hb.symm)
  · intro h
    exact ⟨a, rfl, congrArg some h.symm⟩

namespace Binary64

/-- `± m · 2^e`. -/
def signed (negative : Bool) (m : Nat) (e : Int) : ℚ := (if negative then -1 else 1) * (m * 2 ^ e)

def value? : Binary64 → Option Extended
  | .finite s m e => some (.finite (signed s m e))
  | .infinity s => some (.infinity s)
  | .nan _ => none

theorem two_zpow_split {k e : Int} (h : k ≤ e) :
    (2 : ℚ) ^ e = 2 ^ k * ((Nat.pow 2 (e - k).toNat : Nat) : ℚ) := by
  have hcast : ((Nat.pow 2 (e - k).toNat : Nat) : ℚ) = 2 ^ (((e - k).toNat : Nat) : Int) := by
    rw [Nat.pow_eq, Nat.cast_pow, zpow_natCast]
    rfl
  rw [hcast, ← zpow_add₀ (by norm_num : (2 : ℚ) ≠ 0)]
  congr 1
  omega

theorem sameMagnitude_iff (m : Nat) (e : Int) (n : Nat) (f : Int) :
    sameMagnitude m e n f = true ↔ (m : ℚ) * 2 ^ e = n * 2 ^ f := by
  have hk : (2 : ℚ) ^ min e f ≠ 0 := zpow_ne_zero _ (by norm_num)
  rw [two_zpow_split (min_le_left e f), two_zpow_split (min_le_right e f), mul_left_comm,
    mul_left_comm (n : ℚ), mul_right_inj' hk, ← Nat.cast_mul, ← Nat.cast_mul, Nat.cast_inj]
  unfold sameMagnitude
  rw [beq_iff_eq]

theorem magnitude_nonneg (m : Nat) (e : Int) : (0 : ℚ) ≤ m * 2 ^ e :=
  mul_nonneg (Nat.cast_nonneg m) (zpow_nonneg (by norm_num) e)

theorem magnitude_eq_zero (m : Nat) (e : Int) : (m : ℚ) * 2 ^ e = 0 ↔ m = 0 := by
  rw [mul_eq_zero, Nat.cast_eq_zero]
  exact or_iff_left (zpow_ne_zero e (by norm_num))

/-- Signed numbers are equal if the magnitudes are, and the signs too unless both are zero. -/
theorem sign_mul_eq_iff {a b : ℚ} (ha : 0 ≤ a) (hb : 0 ≤ b) (s t : Bool) :
    (if s then -1 else 1) * a = (if t then -1 else 1) * b ↔ a = b ∧ (a = 0 ∨ s = t) := by
  have hne (hs : -1 * a = 1 * b ∨ 1 * a = -1 * b) : a = 0 ∧ b = 0 := by
    rcases hs with h | h <;> constructor <;> linarith
  cases s <;> cases t <;> simp only [Bool.false_eq_true, if_true, if_false]
  · simp
  · constructor
    · intro h
      obtain ⟨h1, h2⟩ := hne (Or.inr h)
      exact ⟨h1.trans h2.symm, Or.inl h1⟩
    · rintro ⟨h, h0 | h0⟩
      · rw [← h, h0]; ring
      · cases h0
  · constructor
    · intro h
      obtain ⟨h1, h2⟩ := hne (Or.inl h)
      exact ⟨h1.trans h2.symm, Or.inl h1⟩
    · rintro ⟨h, h0 | h0⟩
      · rw [← h, h0]; ring
      · cases h0
  · simp

theorem same_finite_iff (s t : Bool) (m n : Nat) (e f : Int) :
    (Binary64.finite s m e).same (.finite t n f) = true ↔ signed s m e = signed t n f := by
  unfold signed
  rw [sign_mul_eq_iff (magnitude_nonneg m e) (magnitude_nonneg n f), magnitude_eq_zero]
  simp only [same, Bool.and_eq_true, Bool.or_eq_true, beq_iff_eq, sameMagnitude_iff]

theorem same_iff (x y : Binary64) :
    x.same y = true ↔ ∃ v, x.value? = some v ∧ y.value? = some v := by
  cases x with
  | finite s m e =>
    cases y with
    | finite t n f => rw [same_finite_iff, value?, value?, Extended.exists_common, Extended.finite.injEq]
    | infinity t => simp [value?, same]
    | nan => simp [value?, same]
  | infinity s =>
    cases y with
    | finite t n f => simp [value?, same]
    | infinity t => rw [value?, value?, Extended.exists_common, Extended.infinity.injEq, same, beq_iff_eq]
    | nan => simp [value?, same]
  | nan => simp [value?, same]

/-- An integer as a magnitude with a sign. -/
theorem intCast_eq_sign_mul (n : Int) :
    (n : ℚ) = (if decide (n < 0) then -1 else 1) * (n.natAbs : ℚ) := by
  by_cases h : n < 0
  · have : (n.natAbs : Int) = -n := by omega
    have hq : ((n.natAbs : Int) : ℚ) = -(n : ℚ) := by rw [this]; push_cast; ring
    rw [Int.cast_natCast] at hq
    simp [h, hq]
  · have : (n.natAbs : Int) = n := by omega
    have hq : ((n.natAbs : Int) : ℚ) = (n : ℚ) := by rw [this]
    rw [Int.cast_natCast] at hq
    simp [h, hq]

theorem equalsInt_finite_iff (s : Bool) (m : Nat) (e : Int) (n : Int) :
    (Binary64.finite s m e).equalsInt n = true ↔ signed s m e = n := by
  have hmag : ((m : ℚ) * 2 ^ e = (n.natAbs : ℚ)) ↔
      (if 0 ≤ e then m * Nat.pow 2 e.toNat == n.natAbs * 1
        else m == n.natAbs * Nat.pow 2 (-e).toNat) = true := by
    have h := sameMagnitude_iff m e n.natAbs 0
    rw [zpow_zero, mul_one] at h
    rw [← h]
    unfold sameMagnitude
    by_cases he : 0 ≤ e
    · rw [if_pos he, min_eq_right he]
      simp
    · rw [if_neg he, min_eq_left (by omega)]
      simp
  unfold signed
  rw [intCast_eq_sign_mul n, sign_mul_eq_iff (magnitude_nonneg m e) (Nat.cast_nonneg _), hmag]
  have hzero (hm : (m : ℚ) * 2 ^ e = (n.natAbs : ℚ)) : (m : ℚ) * 2 ^ e = 0 ↔ n = 0 := by
    rw [hm, Nat.cast_eq_zero, Int.natAbs_eq_zero]
  by_cases he : 0 ≤ e
  · simp only [equalsInt, if_pos he, Bool.and_eq_true, Bool.or_eq_true, beq_iff_eq] at hmag ⊢
    exact and_congr_right fun h => by rw [hzero (hmag.2 h)]
  · simp only [equalsInt, if_neg he, Bool.and_eq_true, Bool.or_eq_true, beq_iff_eq] at hmag ⊢
    exact and_congr_right fun h => by rw [hzero (hmag.2 h)]

theorem equalsInt_iff (x : Binary64) (n : Int) :
    x.equalsInt n = true ↔ x.value? = some (.finite n) := by
  cases x with
  | finite s m e => rw [equalsInt_finite_iff]; simp [value?]
  | infinity s => simp [equalsInt, value?]
  | nan => simp [equalsInt, value?]

end Binary64

namespace Number

def value? : Number → Option Extended
  | .int n => some (.finite n)
  | .float x => x.value?

/-- Numbers are the same if they count as one thing, whichever kinds they are of. -/
theorem same_iff (a b : Number) : a.same b = true ↔ ∃ v, a.value? = some v ∧ b.value? = some v := by
  cases a with
  | int m =>
    cases b with
    | int n =>
      rw [value?, value?, Extended.exists_common, Extended.finite.injEq, Int.cast_inj, same,
        beq_iff_eq]
    | float y => simp [same, value?, Binary64.equalsInt_iff]
  | float x =>
    cases b with
    | int n => simp [same, value?, Binary64.equalsInt_iff]
    | float y => exact Binary64.same_iff x y

theorem same_trans {a b c : Number} (hab : a.same b = true) (hbc : b.same c = true) :
    a.same c = true := by
  obtain ⟨v, ha, hb⟩ := (same_iff a b).1 hab
  obtain ⟨w, hb', hc⟩ := (same_iff b c).1 hbc
  have hvw : v = w := Option.some.inj (hb.symm.trans hb')
  exact (same_iff a c).2 ⟨v, ha, hvw ▸ hc⟩

end Number

/-! ## Values -/

namespace Json

/-- A value that counts as a number is the same as just the values that count as that number. -/
theorem same_iff_of_number {a b : Json} {m : Number} (h : a.number? = some m) :
    same a b = true ↔ ∃ n, b.number? = some n ∧ m.same n = true := by
  cases a with
  | bool x =>
    have hm : m = .int (if x then 1 else 0) := (Option.some.inj h).symm
    subst hm
    rw [same]
    cases b.number? <;> simp
  | num k =>
    have hm : m = k := (Option.some.inj h).symm
    subst hm
    rw [same]
    cases b.number? <;> simp
  | null | str | arr | obj | table => simp [number?] at h

theorem same_trans_of_number {a b c : Json} {m : Number} (ha : a.number? = some m)
    (hab : same a b = true) (hbc : same b c = true) : same a c = true := by
  obtain ⟨n, hb, hmn⟩ := (same_iff_of_number ha).1 hab
  obtain ⟨o, hc, hno⟩ := (same_iff_of_number hb).1 hbc
  exact (same_iff_of_number ha).2 ⟨o, hc, Number.same_trans hmn hno⟩

theorem nanObject?_eq_some_iff {j : Json} {i : Nat} :
    j.nanObject? = some i ↔ j = .float (.nan i) := by
  constructor
  · intro h
    unfold nanObject? at h
    split at h
    · rw [Option.some.inj h]
      rfl
    · cases h
  · rintro rfl
    rfl

theorem isOneNan_iff {a b : Json} : isOneNan a b = true ↔ a = b ∧ a.isNan = true := by
  rw [isOneNan, Bool.and_eq_true, beq_iff_eq, and_comm]
  refine and_congr_left fun hnan => ⟨fun h => ?_, fun h => h ▸ rfl⟩
  obtain ⟨i, hi⟩ := Option.isSome_iff_exists.1 hnan
  rw [nanObject?_eq_some_iff.1 hi, nanObject?_eq_some_iff.1 (h.symm.trans hi)]

/-- What is no number equals nothing. -/
theorem same_eq_false_of_isNan {a : Json} (h : a.isNan = true) (b : Json) : same a b = false := by
  obtain ⟨i, hi⟩ := Option.isSome_iff_exists.1 h
  rw [nanObject?_eq_some_iff.1 hi, Bool.eq_false_iff]
  intro hsame
  obtain ⟨n, -, hn⟩ := (same_iff_of_number (m := .float (.nan i)) rfl).1 hsame
  obtain ⟨v, hv, -⟩ := (Number.same_iff _ n).1 hn
  cases hv

/-- A member that is no number is as good as itself; any other as an equal one. -/
theorem sameMember_iff {a b : Json} :
    sameMember a b = true ↔ (a = b ∧ a.isNan = true) ∨ same a b = true := by
  rw [sameMember, Bool.or_eq_true, isOneNan_iff]

theorem sameMember_eq_same {a b : Json} (h : a.isNan = false ∨ b.isNan = false) :
    sameMember a b = same a b := by
  have hone : isOneNan a b = false := by
    refine Bool.eq_false_iff.2 fun hone => ?_
    obtain ⟨rfl, hnan⟩ := isOneNan_iff.1 hone
    rw [hnan] at h
    simp at h
  rw [sameMember, hone, Bool.false_or]

theorem sameMember_trans {a b c : Json}
    (htrans : same a b = true → same b c = true → same a c = true)
    (hab : sameMember a b = true) (hbc : sameMember b c = true) : sameMember a c = true := by
  rcases sameMember_iff.1 hab with ⟨rfl, -⟩ | hab
  · exact hbc
  · rcases sameMember_iff.1 hbc with ⟨rfl, -⟩ | hbc
    · exact sameMember_iff.2 (.inr hab)
    · exact sameMember_iff.2 (.inr (htrans hab hbc))

theorem sameItems_cons (x y : Json) (xs ys : List Json) :
    sameItems (x :: xs) (y :: ys) = (sameMember x y && sameItems xs ys) := by
  rw [sameItems, sameMember]

theorem sameFields_iff (fs gs : List (String × Json)) :
    sameFields fs gs = true ↔
      ∀ e ∈ fs, ∃ w, OrderedMap.find? e.1 gs = some w ∧ sameMember e.2 w = true := by
  induction fs with
  | nil => simp [sameFields]
  | cons e rest ih =>
    obtain ⟨k, v⟩ := e
    rw [sameFields, Bool.and_eq_true, ih, List.forall_mem_cons]
    cases OrderedMap.find? k gs <;> simp [sameMember]

mutual

theorem same_trans : ∀ a b c : Json, same a b = true → same b c = true → same a c = true
  | .null, b, c, hab, hbc => by
    cases b <;> first | exact hbc | simp [same, isNull] at hab
  | .bool x, b, c, hab, hbc => same_trans_of_number (a := .bool x) rfl hab hbc
  | .num n, b, c, hab, hbc => same_trans_of_number (a := .num n) rfl hab hbc
  | .str s, b, c, hab, hbc => by
    cases b with
    | str t =>
      have hst : s = t := by simpa [same] using hab
      exact hst ▸ hbc
    | null | bool | num | arr | obj | table => simp [same] at hab
  | .arr xs, b, c, hab, hbc => by
    cases b with
    | arr ys =>
      cases c with
      | arr zs =>
        rw [same] at hab hbc ⊢
        exact sameItems_trans xs ys zs hab hbc
      | null | bool | num | str | obj | table => simp [same] at hbc
    | null | bool | num | str | obj | table => simp [same] at hab
  | .table xs, b, c, hab, hbc => by
    cases b with
    | table ys =>
      cases c with
      | table zs =>
        rw [same] at hab hbc ⊢
        exact sameItems_trans xs ys zs hab hbc
      | null | bool | num | str | arr | obj => simp [same] at hbc
    | null | bool | num | str | arr | obj => simp [same] at hab
  | .obj fs, b, c, hab, hbc => by
    cases b with
    | obj gs =>
      cases c with
      | obj hs =>
        rw [same, Bool.and_eq_true, beq_iff_eq] at hab hbc ⊢
        exact ⟨hab.1.trans hbc.1, sameFields_trans fs gs hs hab.2 hbc.2⟩
      | null | bool | num | str | arr | table => simp [same] at hbc
    | null | bool | num | str | arr | table => simp [same] at hab

theorem sameItems_trans : ∀ xs ys zs : List Json,
    sameItems xs ys = true → sameItems ys zs = true → sameItems xs zs = true
  | [], ys, zs, hxy, hyz => by
    cases ys with
    | nil => exact hyz
    | cons y ys => simp [sameItems] at hxy
  | x :: xs, ys, zs, hxy, hyz => by
    cases ys with
    | nil => simp [sameItems] at hxy
    | cons y ys =>
      cases zs with
      | nil => simp [sameItems] at hyz
      | cons z zs =>
        rw [sameItems_cons, Bool.and_eq_true] at hxy hyz ⊢
        exact ⟨sameMember_trans (same_trans x y z) hxy.1 hyz.1,
          sameItems_trans xs ys zs hxy.2 hyz.2⟩

theorem sameFields_trans : ∀ fs gs hs : List (String × Json),
    sameFields fs gs = true → sameFields gs hs = true → sameFields fs hs = true
  | [], gs, hs, _, _ => rfl
  | (k, v) :: rest, gs, hs, hfg, hgh => by
    obtain ⟨w, hw, hvw⟩ := (sameFields_iff _ _).1 hfg (k, v) List.mem_cons_self
    obtain ⟨u, hu, hwu⟩ := (sameFields_iff _ _).1 hgh (k, w) (OrderedMap.mem_of_find? hw)
    have hrest : sameFields rest gs = true := by
      rw [sameFields, Bool.and_eq_true] at hfg
      exact hfg.2
    have hvu : sameMember v u = true := sameMember_trans (same_trans v w u) hvw hwu
    rw [sameFields, Bool.and_eq_true, hu]
    exact ⟨hvu, sameFields_trans rest gs hs hrest hgh⟩

end

theorem sameOption_trans {a b c : Option Json} (hab : sameOption a b = true)
    (hbc : sameOption b c = true) : sameOption a c = true := by
  cases a <;> cases b <;> cases c <;> simp_all [sameOption]
  exact same_trans _ _ _ hab hbc

/-- Whether what may be absent is equal by value, or the very same. -/
def Matches (a b : Option Json) : Prop := a = b ∨ sameOption a b = true

theorem Matches.refl (a : Option Json) : Matches a a := Or.inl rfl

theorem Matches.trans {a b c : Option Json} (hab : Matches a b) (hbc : Matches b c) :
    Matches a c := by
  rcases hab with rfl | hab
  · exact hbc
  · rcases hbc with rfl | hbc
    · exact Or.inr hab
    · exact Or.inr (sameOption_trans hab hbc)

/-- Absence matches absence only. -/
theorem Matches.eq_none_iff {a b : Option Json} (h : Matches a b) : a = none ↔ b = none := by
  rcases h with rfl | h
  · rfl
  · cases a <;> cases b <;> simp_all [sameOption]

/-! ## References to signals -/

/-- A reference to a signal equals by value only itself. -/
theorem same_signalRef {s : String} {j : Json} (h : same (signalRef s) j = true) : j = signalRef s := by
  unfold signalRef at h ⊢
  cases j with
  | obj fs =>
    rw [same, Bool.and_eq_true, beq_iff_eq] at h
    obtain ⟨e, rfl⟩ := List.length_eq_one_iff.1 h.1.symm
    obtain ⟨w, hw, hsame⟩ := (sameFields_iff _ _).1 h.2 ("signal", .str s) List.mem_cons_self
    obtain rfl := List.mem_singleton.1 (OrderedMap.mem_of_find? hw)
    rw [sameMember_eq_same (.inl rfl)] at hsame
    cases w with
    | str x =>
      have hx : s = x := by simpa [same] using hsame
      rw [hx]
    | null | bool | num | arr | obj | table => simp [same] at hsame
  | null | bool | num | str | arr | table => simp [same] at h

/-- Only a reference to a signal equals it by value. -/
theorem signalRef_same {s : String} {j : Json} (h : same j (signalRef s) = true) : j = signalRef s := by
  unfold signalRef at h ⊢
  cases j with
  | obj fs =>
    rw [same, Bool.and_eq_true, beq_iff_eq] at h
    obtain ⟨⟨k, v⟩, rfl⟩ := List.length_eq_one_iff.1 h.1
    obtain ⟨w, hw, hsame⟩ := (sameFields_iff _ _).1 h.2 (k, v) List.mem_cons_self
    obtain ⟨rfl, rfl⟩ := Prod.mk.inj (List.mem_singleton.1 (OrderedMap.mem_of_find? hw))
    rw [sameMember_eq_same (.inr rfl)] at hsame
    cases v with
    | str x =>
      have hx : x = s := by simpa [same] using hsame
      rw [hx]
    | null => simp [same, isNull] at hsame
    | bool | num => simp [same, number?] at hsame
    | arr | obj | table => simp [same] at hsame
  | null => simp [same, isNull] at h
  | bool | num => simp [same, number?] at h
  | str | arr | table => simp [same] at h

theorem sameItems_signalRefs {names : List String} {js : List Json}
    (h : sameItems (names.map signalRef) js = true ∨ sameItems js (names.map signalRef) = true) :
    js = names.map signalRef := by
  induction names generalizing js with
  | nil =>
    cases js with
    | nil => rfl
    | cons j rest => simp [sameItems] at h
  | cons n names ih =>
    cases js with
    | nil => simp [sameItems] at h
    | cons j rest =>
      rw [List.map_cons, sameItems_cons, sameItems_cons, sameMember_eq_same (.inl rfl),
        sameMember_eq_same (.inr rfl), Bool.and_eq_true, Bool.and_eq_true] at h
      rcases h with h | h
      · rw [same_signalRef h.1, ih (Or.inl h.2), List.map_cons]
      · rw [signalRef_same h.1, ih (Or.inr h.2), List.map_cons]

end Json

end ChartLowering
