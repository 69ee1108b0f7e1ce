import ChartLowering.Proofs.Json.Equality
import ChartLowering.Proofs.Schema.Accepted
import Mathlib.Data.List.Perm.Subperm

/-
  Equality of values, turned around.

  Objects are compared by looking up every field of the first one in the second one and by counting
  the fields. That finds the fields of the second one in the first one too if neither object has a
  key twice, so values with distinct keys may be compared either way round (`Json.same_symm`). Such a
  value is equal to itself unless it is no number (`Json.same_refl`): what it holds is compared as
  members are.
-/

namespace ChartLowering

theorem Number.same_symm {a b : Number} (h : a.same b = true) : b.same a = true := by
  obtain ⟨v, ha, hb⟩ := (same_iff a b).1 h
  exact (same_iff b a).2 ⟨v, hb, ha⟩

namespace Json

theorem same_symm_of_number {a b : Json} {m : Number} (ha : a.number? = some m)
    (h : same a b = true) : same b a = true := by
  obtain ⟨n, hb, hmn⟩ := (same_iff_of_number ha).1 h
  exact (same_iff_of_number hb).2 ⟨m, ha, Number.same_symm hmn⟩

/-- Equal objects have the same keys. -/
theorem keys_perm_of_sameFields {fs gs : List (String × Json)} (hfs : (fs.map Prod.fst).Nodup)
    (hlength : fs.length = gs.length) (h : sameFields fs gs = true) :
    (fs.map Prod.fst).Perm (gs.map Prod.fst) := by
  have hsubset : fs.map Prod.fst ⊆ gs.map Prod.fst := by
    intro k hk
    obtain ⟨e, he, rfl⟩ := List.mem_map.1 hk
    obtain ⟨w, hw, -⟩ := (sameFields_iff fs gs).1 h e he
    exact List.mem_map.2 ⟨(e.1, w), OrderedMap.mem_of_find? hw, rfl⟩
  exact (hfs.subperm hsubset).perm_of_length_le (by simp [hlength])

/-- In an object with distinct keys every field is found under its key. -/
theorem find?_of_mem {fs : List (String × Json)} (hfs : (fs.map Prod.fst).Nodup)
    {e : String × Json} (he : e ∈ fs) : OrderedMap.find? e.1 fs = some e.2 :=
  OrderedMap.get?_of_mem (m := ⟨fs⟩) hfs he

theorem sameMember_symm {a b : Json} (hsymm : same a b = true → same b a = true)
    (h : sameMember a b = true) : sameMember b a = true := by
  rcases sameMember_iff.1 h with ⟨rfl, -⟩ | h
  · exact h
  · exact sameMember_iff.2 (.inr (hsymm h))

mutual

theorem same_symm : ∀ a b : Json, a.distinctKeys = true → b.distinctKeys = true →
    same a b = true → same b a = true
  | .null, b, _, _, h => by
    cases b with
    | null => rfl
    | bool | num | str | arr | obj | table => cases h
  | .bool x, b, _, _, h => same_symm_of_number (a := .bool x) rfl h
  | .num n, b, _, _, h => same_symm_of_number (a := .num n) rfl h
  | .str s, b, _, _, h => by
    cases b with
    | str t =>
      have hst : s = t := by simpa [same] using h
      rw [hst, same, beq_self_eq_true]
    | null | bool | num | arr | obj | table => simp [same] at h
  | .arr xs, b, hxs, hb, h => by
    cases b with
    | arr ys =>
      rw [same] at h ⊢
      rw [distinctKeys] at hxs hb
      exact sameItems_symm xs ys hxs hb h
    | null | bool | num | str | obj | table => simp [same] at h
  | .table xs, b, hxs, hb, h => by
    cases b with
    | table ys =>
      rw [same] at h ⊢
      rw [distinctKeys] at hxs hb
      exact sameItems_symm xs ys hxs hb h
    | null | bool | num | str | arr | obj => simp [same] at h
  | .obj fs, b, ha, hb, h => by
    cases b with
    | obj gs =>
      obtain ⟨hfs, hfields⟩ := distinctKeys_obj ha
      obtain ⟨hgs, hgfields⟩ := distinctKeys_obj hb
      rw [same, Bool.and_eq_true, beq_iff_eq] at h ⊢
      refine ⟨h.1.symm, (sameFields_iff gs fs).2 fun e he => ?_⟩
      -- the key of the field is one of the first object's too, where an equal value stands
      have hkey : e.1 ∈ fs.map Prod.fst :=
        (keys_perm_of_sameFields hfs h.1 h.2).mem_iff.2 (List.mem_map_of_mem he)
      obtain ⟨f, hf, hfe⟩ := List.mem_map.1 hkey
      obtain ⟨w, hw, hsame⟩ := (sameFields_iff fs gs).1 h.2 f hf
      have hfound := find?_of_mem hgs he
      rw [hfe, hfound] at hw
      obtain rfl := Option.some.inj hw
      have hvalue := distinctKeys_of_find? hgfields hfound
      refine ⟨f.2, ?_, fields_symm fs hfields f hf e.2 hvalue hsame⟩
      rw [← hfe]
      exact find?_of_mem hfs hf
    | null | bool | num | str | arr | table => simp [same] at h

theorem sameItems_symm : ∀ xs ys : List Json, distinctKeysAll xs = true →
    distinctKeysAll ys = true → sameItems xs ys = true → sameItems ys xs = true
  | [], ys, _, _, h => by
    cases ys with
    | nil => rfl
    | cons y ys => simp [sameItems] at h
  | x :: xs, ys, hxs, hys, h => by
    cases ys with
    | nil => simp [sameItems] at h
    | cons y ys =>
      rw [distinctKeysAll, Bool.and_eq_true] at hxs hys
      rw [sameItems_cons, Bool.and_eq_true] at h ⊢
      exact ⟨sameMember_symm (same_symm x y hxs.1 hys.1) h.1,
        sameItems_symm xs ys hxs.2 hys.2 h.2⟩

theorem fields_symm : ∀ fs : List (String × Json), distinctKeysFields fs = true →
    ∀ e ∈ fs, ∀ w : Json, w.distinctKeys = true →
      sameMember e.2 w = true → sameMember w e.2 = true
  | [], _, _, he, _, _, _ => absurd he List.not_mem_nil
  | (_, v) :: rest, hfs, e, he, w, hw, h => by
    rw [distinctKeysFields, Bool.and_eq_true] at hfs
    rcases List.mem_cons.1 he with rfl | he
    · exact sameMember_symm (same_symm v w hfs.1 hw) h
    · exact fields_symm rest hfs.2 e he w hw h

end

/-! ## Equality with itself -/

theorem same_refl_of_number {n : Number} (h : (Json.num n).isNan = false) : n.same n = true := by
  rw [Number.same_iff]
  cases n with
  | int n => exact ⟨_, rfl, rfl⟩
  | float x =>
    cases x with
    | finite | infinity => exact ⟨_, rfl, rfl⟩
    | nan => cases h

/-- A member is as good as itself if it is equal to itself or no number. -/
theorem sameMember_self {j : Json} (h : j.isNan = false → same j j = true) :
    sameMember j j = true := by
  cases hnan : j.isNan with
  | true => exact sameMember_iff.2 (.inl ⟨rfl, hnan⟩)
  | false => exact sameMember_iff.2 (.inr (h hnan))

mutual

theorem same_refl : ∀ j : Json, j.distinctKeys = true → j.isNan = false → same j j = true
  | .null, _, _ => rfl
  | .bool b, _, _ => by cases b <;> rfl
  | .num n, _, hnan => by
    rw [same]
    exact same_refl_of_number hnan
  | .str s, _, _ => by rw [same, beq_self_eq_true]
  | .arr xs, hxs, _ => by
    rw [distinctKeys] at hxs
    rw [same]
    exact sameItems_refl xs hxs
  | .table xs, hxs, _ => by
    rw [distinctKeys] at hxs
    rw [same]
    exact sameItems_refl xs hxs
  | .obj fs, h, _ => by
    obtain ⟨hfs, hfields⟩ := distinctKeys_obj h
    rw [same, beq_self_eq_true, Bool.true_and, sameFields_iff]
    exact fun e he => ⟨e.2, find?_of_mem hfs he, fields_refl fs hfields e he⟩

theorem sameItems_refl : ∀ xs : List Json, distinctKeysAll xs = true → sameItems xs xs = true
  | [], _ => rfl
  | x :: xs, hxs => by
    rw [distinctKeysAll, Bool.and_eq_true] at hxs
    rw [sameItems_cons, Bool.and_eq_true]
    exact ⟨sameMember_self (same_refl x hxs.1), sameItems_refl xs hxs.2⟩

theorem fields_refl : ∀ fs : List (String × Json), distinctKeysFields fs = true →
    ∀ e ∈ fs, sameMember e.2 e.2 = true
  | [], _, _, he => absurd he List.not_mem_nil
  | (_, v) :: rest, hfs, e, he => by
    rw [distinctKeysFields, Bool.and_eq_true] at hfs
    rcases List.mem_cons.1 he with rfl | he
    · exact sameMember_self (same_refl v hfs.1)
    · exact fields_refl rest hfs.2 e he

end

end Json

end ChartLowering
