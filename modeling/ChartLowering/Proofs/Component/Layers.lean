import ChartLowering.Component.Layered
import Mathlib.Data.List.Nodup

/-
  Layered properties after any writes.

  A write replaces one property in one layer (`get?_layer_write`), so each layer holds the last value
  that was written into it for a key, or the one that it began with (`get?_layer_writeAll`). All ways
  to read prefer the explicit layer. Hence what they give depends on the last writes into the two
  layers and not on how these are interleaved (`reads_after_writes`).
-/

namespace ChartLowering

namespace Layered

/-- A write into one of the layers. -/
inductive Write where
  | set (key : String) (value : Json) (isExplicit : Bool)
  | setWithLayer (key : String) (value : Json × Bool)
deriving Repr, DecidableEq

namespace Write

def key : Write → String
  | .set k _ _ => k
  | .setWithLayer k _ => k

def value : Write → Json
  | .set _ v _ => v
  | .setWithLayer _ v => v.1

def isExplicit : Write → Bool
  | .set _ _ e => e
  | .setWithLayer _ v => v.2

/-- The value that a write gives to a key in a layer. -/
def valueFor? (isExplicit : Bool) (k : String) (w : Write) : Option Json :=
  if w.isExplicit = isExplicit ∧ w.key = k then some w.value else none

end Write

def write (l : Layered) : Write → Layered
  | .set k v e => l.set k v e
  | .setWithLayer k v => l.setWithLayer k v

def writeAll (l : Layered) (writes : List Write) : Layered := writes.foldl write l

def layer (l : Layered) (isExplicit : Bool) : Fields := if isExplicit then l.explicit else l.implicit

/-- The last value of a key in one layer: the last one that is written, or else the one that was there. -/
def lastIn (l : Layered) (isExplicit : Bool) (writes : List Write) (k : String) : Option Json :=
  (writes.filterMap (Write.valueFor? isExplicit k)).getLast?.or ((l.layer isExplicit).get? k)

variable {l : Layered} {w : Write} {writes : List Write} {k : String}

/-! ## One write -/

theorem write_eq_set (l : Layered) (w : Write) : l.write w = l.set w.key w.value w.isExplicit := by
  cases w <;> rfl

theorem layer_write (l : Layered) (w : Write) (e : Bool) :
    (l.write w).layer e =
      if w.isExplicit = e then (l.layer e).insert w.key w.value else l.layer e := by
  rw [write_eq_set]
  cases w.isExplicit <;> cases e <;> rfl

/-- The value that a write gives to a key in a layer takes the place of the one before. -/
theorem get?_layer_write (l : Layered) (w : Write) (e : Bool) (k : String) :
    ((l.write w).layer e).get? k = (w.valueFor? e k).or ((l.layer e).get? k) := by
  rw [layer_write, Write.valueFor?]
  by_cases he : w.isExplicit = e
  · rw [if_pos he, OrderedMap.get?_insert]
    by_cases hk : w.key = k
    · rw [if_pos hk.symm, if_pos ⟨he, hk⟩, Option.some_or]
    · rw [if_neg (Ne.symm hk), if_neg fun h => hk h.2, Option.none_or]
  · rw [if_neg he, if_neg fun h => he h.1, Option.none_or]

theorem nodup_keys_layer_write (h : ∀ e, (l.layer e).keys.Nodup) (w : Write) (e : Bool) :
    ((l.write w).layer e).keys.Nodup := by
  rw [layer_write]
  split
  · exact OrderedMap.nodup_keys_insert (h e) _ _
  · exact h e

theorem has_eq_isSome (l : Layered) (k : String) : l.has k = (l.get? k).isSome := by
  unfold has get? OrderedMap.contains
  rw [Option.isSome_or]

/-! ## All writes -/

theorem get?_layer_writeAll (l : Layered) (writes : List Write) (e : Bool) (k : String) :
    ((l.writeAll writes).layer e).get? k = l.lastIn e writes k := by
  induction writes generalizing l with
  | nil => rfl
  | cons w rest ih =>
    show (((l.write w).writeAll rest).layer e).get? k = _
    rw [ih, lastIn, lastIn, get?_layer_write]
    cases hvalue : w.valueFor? e k with
    | none => rw [List.filterMap_cons_none hvalue, Option.none_or]
    | some v =>
      -- a later write wins over this one, and this one over the value that was there
      rw [List.filterMap_cons_some hvalue, List.getLast?_cons, Option.some_or, Option.some_or]
      cases (rest.filterMap (Write.valueFor? e k)).getLast? <;> rfl

theorem nodup_keys_layer_writeAll (h : ∀ e, (l.layer e).keys.Nodup) (writes : List Write) (e : Bool) :
    ((l.writeAll writes).layer e).keys.Nodup := by
  induction writes generalizing l with
  | nil => exact h e
  | cons w rest ih => exact ih (nodup_keys_layer_write h w)

/-- A layer has a value for the keys that are written into it and for those that it began with. -/
theorem isSome_lastIn_iff (l : Layered) (e : Bool) (writes : List Write) (k : String) :
    (l.lastIn e writes k).isSome = true ↔
      (∃ w ∈ writes, w.isExplicit = e ∧ w.key = k) ∨ k ∈ (l.layer e).keys := by
  have hvalue : ∀ w : Write, w.valueFor? e k ≠ none ↔ w.isExplicit = e ∧ w.key = k := by
    intro w
    unfold Write.valueFor?
    split <;> simp_all
  rw [lastIn, Option.isSome_or, Bool.or_eq_true, List.getLast?_isSome, Ne,
    List.filterMap_eq_nil_iff, ← OrderedMap.contains, OrderedMap.contains_iff_mem_keys]
  push Not
  simp only [hvalue]

theorem getWithLayer_writeAll (l : Layered) (writes : List Write) (k : String) :
    (l.writeAll writes).getWithLayer k =
      match l.lastIn true writes k with
      | some v => (v, true)
      | none => ((l.lastIn false writes k).getD .null, false) := by
  rw [← get?_layer_writeAll, ← get?_layer_writeAll]
  rfl

theorem get?_writeAll (l : Layered) (writes : List Write) (k : String) :
    (l.writeAll writes).get? k = (l.lastIn true writes k).or (l.lastIn false writes k) := by
  rw [← get?_layer_writeAll, ← get?_layer_writeAll]
  rfl

theorem has_writeAll_iff (l : Layered) (writes : List Write) (k : String) :
    (l.writeAll writes).has k = true ↔
      (∃ w ∈ writes, w.key = k) ∨ k ∈ l.explicit.keys ∨ k ∈ l.implicit.keys := by
  rw [has_eq_isSome, get?_writeAll, Option.isSome_or, Bool.or_eq_true, isSome_lastIn_iff,
    isSome_lastIn_iff]
  constructor
  · rintro ((⟨w, hw, -, hk⟩ | hk) | (⟨w, hw, -, hk⟩ | hk))
    · exact Or.inl ⟨w, hw, hk⟩
    · exact Or.inr (Or.inl hk)
    · exact Or.inl ⟨w, hw, hk⟩
    · exact Or.inr (Or.inr hk)
  · rintro (⟨w, hw, hk⟩ | hk | hk)
    · cases he : w.isExplicit with
      | true => exact Or.inl (Or.inl ⟨w, hw, he, hk⟩)
      | false => exact Or.inr (Or.inl ⟨w, hw, he, hk⟩)
    · exact Or.inl (Or.inr hk)
    · exact Or.inr (Or.inr hk)

theorem mem_keys_combine_iff (h : l.explicit.keys.Nodup) (k : String) :
    k ∈ l.combine.keys ↔ l.has k = true := by
  rw [← OrderedMap.contains_iff_mem_keys, OrderedMap.contains, get?_combine l h, has_eq_isSome]

/-- After any writes into two layers without repeated keys, a look-up gives the last explicit value of
a key, written or there before, and says that it is explicit; without one it gives the last implicit
value, and says that it is not. There is a value for exactly the keys that were written or there
before, and both layers in one have exactly these keys, each once and with the value of the look-up. -/
theorem reads_after_writes {l : Layered} (hexplicit : l.explicit.keys.Nodup)
    (himplicit : l.implicit.keys.Nodup) (writes : List Write) :
    (∀ k, (l.writeAll writes).get? k = (l.lastIn true writes k).or (l.lastIn false writes k)) ∧
    (∀ k, (l.writeAll writes).getWithLayer k =
      match l.lastIn true writes k with
      | some v => (v, true)
      | none => ((l.lastIn false writes k).getD .null, false)) ∧
    (∀ k, (l.writeAll writes).has k = true ↔
      (∃ w ∈ writes, w.key = k) ∨ k ∈ l.explicit.keys ∨ k ∈ l.implicit.keys) ∧
    (l.writeAll writes).combine.keys.Nodup ∧
    ∀ k, (k ∈ (l.writeAll writes).combine.keys ↔ (l.writeAll writes).has k = true) ∧
      (l.writeAll writes).combine.get? k = (l.writeAll writes).get? k := by
  have hlayers : ∀ e, ((l.writeAll writes).layer e).keys.Nodup := by
    refine nodup_keys_layer_writeAll (fun e => ?_) writes
    cases e with
    | true => exact hexplicit
    | false => exact himplicit
  refine ⟨get?_writeAll l writes, getWithLayer_writeAll l writes, has_writeAll_iff l writes, ?_, ?_⟩
  · exact OrderedMap.nodup_keys_overlay (hlayers false) _
  · exact fun k => ⟨mem_keys_combine_iff (hlayers true) k, get?_combine _ (hlayers true) k⟩

/-- The layers of a projection that only has a name. -/
def nameOnly : Layered := ⟨.empty, ⟨[("name", .str "layer_0_projection")]⟩⟩

/-- The type is set and then derived, and the name is derived anew. -/
def projectionWrites : List Write :=
  [.setWithLayer "type" (.str "mercator", true), .set "type" (.str "equalEarth") false,
    .set "name" (.str "projection") false]

/-- The type that was set stays, and the name is the one that was derived last. -/
theorem reads_after_projectionWrites :
    nameOnly.explicit.keys.Nodup ∧ nameOnly.implicit.keys.Nodup ∧
      (nameOnly.writeAll projectionWrites).getWithLayer "type" = (.str "mercator", true) ∧
      (nameOnly.writeAll projectionWrites).combine.get? "name" = some (.str "projection") := by
  have hexplicit : nameOnly.explicit.keys.Nodup := List.nodup_nil
  have himplicit : nameOnly.implicit.keys.Nodup := List.nodup_singleton _
  obtain ⟨hget, hlayer, -, -, hcombine⟩ := reads_after_writes hexplicit himplicit projectionWrites
  exact ⟨hexplicit, himplicit, hlayer "type", (hcombine "name").2.trans (hget "name")⟩

end Layered

end ChartLowering
