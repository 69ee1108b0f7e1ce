import ChartLowering.Grammar
import ChartLowering.Proofs.Sharing.Agreement

/-
  Properties that are not compared.

  A family lists the properties that its components are compared by, and a component may set others.
  A merge looks at the list when it asks whether two components agree, and at the whole layers when
  it asks whether a side sets nothing. The two questions part company over a component that sets
  unlisted properties only:

  * beside one that sets a listed property it is in conflict, which it would not be without its
    unlisted properties. No other property outside the list ever makes a conflict
    (`conflict_iff_without_unlisted`).
  * behind one that sets nothing it is in agreement, and is dropped with all that it sets. Every
    other component that alone sets anything is kept (`lone_kept`).
-/

namespace ChartLowering

namespace Component

variable {properties : List String} {a b c : Component}

/-- The component without the properties that are not listed. -/
def restrict (properties : List String) (c : Component) : Component :=
  { c with explicit := c.explicit.filterKeys properties.contains }

/-- Whether a component sets a listed property. -/
def setsListed (properties : List String) (c : Component) : Bool :=
  properties.any c.explicit.contains

/-- Whether all that a component sets is unlisted, and something is set. -/
def setsUnlistedOnly (properties : List String) (c : Component) : Bool :=
  c.sets && !c.setsListed properties

/-! ## Listed properties -/

theorem get?_of_not_setsListed (h : c.setsListed properties = false) {p : String}
    (hp : p ∈ properties) : c.explicit.get? p = none := by
  have hnone : ¬ c.explicit.contains p = true := List.any_eq_false.1 h p hp
  rw [OrderedMap.contains_iff_mem_keys] at hnone
  exact (OrderedMap.get?_eq_none_iff _ _).2 hnone

theorem sets_of_setsListed (h : c.setsListed properties = true) : c.sets = true := by
  obtain ⟨p, -, hp⟩ := List.any_eq_true.1 h
  by_contra hne
  rw [explicit_of_not_sets (Bool.not_eq_true _ ▸ hne)] at hp
  cases hp

theorem sets_restrict (properties : List String) (c : Component) :
    (c.restrict properties).sets = c.setsListed properties := by
  obtain ⟨name, ⟨l⟩, rest⟩ := c
  unfold sets setsListed restrict OrderedMap.filterKeys OrderedMap.isEmpty
  rw [Bool.eq_iff_iff, Bool.not_eq_true', List.isEmpty_eq_false_iff_exists_mem, List.any_eq_true]
  constructor
  · rintro ⟨e, he⟩
    obtain ⟨he, hlisted⟩ := List.mem_filter.1 he
    exact ⟨e.1, List.contains_iff_mem.1 hlisted,
      (OrderedMap.contains_iff_mem_keys _ _).2 (List.mem_map_of_mem he)⟩
  · rintro ⟨p, hp, hset⟩
    obtain ⟨e, he, rfl⟩ := List.mem_map.1 ((OrderedMap.contains_iff_mem_keys _ _).1 hset)
    exact ⟨e, List.mem_filter.2 ⟨he, List.contains_iff_mem.2 hp⟩⟩

theorem sameSize_restrict (properties : List String) (a b : Component) :
    sameSize (a.restrict properties) (b.restrict properties) = sameSize a b := rfl

/-- Agreement is asked of listed properties only. -/
theorem agreeOn_restrict (properties : List String) (a b : Component) :
    agreeOn properties (a.restrict properties).explicit (b.restrict properties).explicit =
      agreeOn properties a.explicit b.explicit := by
  have hget (c : Component) {p : String} (hp : p ∈ properties) :
      (c.restrict properties).explicit.get? p = c.explicit.get? p := by
    rw [restrict, OrderedMap.get?_filterKeys, if_pos (List.contains_iff_mem.2 hp)]
  unfold agreeOn
  rw [Bool.eq_iff_iff, List.all_eq_true, List.all_eq_true]
  exact forall₂_congr fun p hp => by rw [hget a hp, hget b hp]

/-- With a component that sets no listed property exactly those agree that set none either. -/
theorem agreeOn_of_not_setsListed (ha : a.setsListed properties = false) (b : Component) :
    agreeOn properties a.explicit b.explicit = !b.setsListed properties ∧
      agreeOn properties b.explicit a.explicit = !b.setsListed properties := by
  have hone : ∀ p ∈ properties,
      Json.sameOption (a.explicit.get? p) (b.explicit.get? p) = !b.explicit.contains p ∧
        Json.sameOption (b.explicit.get? p) (a.explicit.get? p) = !b.explicit.contains p := by
    intro p hp
    rw [get?_of_not_setsListed ha hp, OrderedMap.contains]
    cases b.explicit.get? p <;> exact ⟨rfl, rfl⟩
  unfold agreeOn setsListed
  rw [List.not_any_eq_all_not]
  constructor
  · rw [Bool.eq_iff_iff, List.all_eq_true, List.all_eq_true]
    exact forall₂_congr fun p hp => by rw [(hone p hp).1]
  · rw [Bool.eq_iff_iff, List.all_eq_true, List.all_eq_true]
    exact forall₂_congr fun p hp => by rw [(hone p hp).2]

/-! ## Conflicts -/

/-- Components are in conflict if their sizes differ, or if both set something and they do not
agree. -/
theorem merge?_eq_none_iff : merge? properties a b = none ↔
    sameSize a b = false ∨
      agreeOn properties a.explicit b.explicit = false ∧ a.sets = true ∧ b.sets = true := by
  unfold merge?
  rw [isEmpty_eq_not_sets, isEmpty_eq_not_sets]
  cases sameSize a b <;> cases agreeOn properties a.explicit b.explicit <;> cases a.sets <;>
    cases b.sets <;> decide

theorem merge?_restrict_eq_none_iff :
    merge? properties (a.restrict properties) (b.restrict properties) = none ↔
      sameSize a b = false ∨ agreeOn properties a.explicit b.explicit = false ∧
        a.setsListed properties = true ∧ b.setsListed properties = true := by
  rw [merge?_eq_none_iff, sameSize_restrict, agreeOn_restrict, sets_restrict, sets_restrict]

/-- Whether of two components of equal size one sets unlisted properties only, and the other one a
listed property. -/
def Blocked (properties : List String) (a b : Component) : Prop :=
  sameSize a b = true ∧
    (a.setsUnlistedOnly properties = true ∧ b.setsListed properties = true ∨
      b.setsUnlistedOnly properties = true ∧ a.setsListed properties = true)

/-- Components are in conflict exactly as they are without their unlisted properties, unless one of
them sets unlisted properties only and the other one, of equal size, sets a listed property. These
are always in conflict. -/
theorem conflict_iff_without_unlisted (properties : List String) (a b : Component) :
    ((merge? properties a b = none ↔
        merge? properties (a.restrict properties) (b.restrict properties) = none) ↔
      ¬ Blocked properties a b) ∧
    (Blocked properties a b → merge? properties a b = none) := by
  rw [merge?_restrict_eq_none_iff, merge?_eq_none_iff]
  unfold Blocked setsUnlistedOnly
  cases hla : a.setsListed properties with
  | true =>
    have hsa := sets_of_setsListed hla
    cases hlb : b.setsListed properties with
    | true =>
      -- neither layer becomes empty
      simp [hsa, sets_of_setsListed hlb]
    | false =>
      have hagree := (agreeOn_of_not_setsListed hlb a).2
      rw [hla] at hagree
      cases sameSize a b <;> simp [hagree, hsa]
  | false =>
    have hagree := (agreeOn_of_not_setsListed hla b).1
    cases hlb : b.setsListed properties with
    | true =>
      rw [hlb] at hagree
      cases sameSize a b <;> simp [hagree, sets_of_setsListed hlb]
    | false =>
      -- neither sets a listed property, so they agree
      rw [hlb] at hagree
      simp [hagree]

/-- An axis that sets a property outside the list of its family is in conflict with one that sets a
title. Without that property it would give way. -/
theorem conflict_of_unlisted :
    let sized := ofExplicit "layer_0_x_axis" ⟨[("labelFontSize", .int 20)]⟩
    let titled := ofExplicit "layer_1_x_axis" ⟨[("title", .str "Price")]⟩
    let listed := Family.axis.properties
    merge? listed sized titled = none ∧
      merge? listed (sized.restrict listed) (titled.restrict listed) = some .second := by
  decide +kernel

/-! ## Components that alone set anything -/

/-- A component that sets nothing never takes the place of another one. -/
theorem merge?_of_second_unset (hb : b.sets = false) :
    merge? properties a b = if sameSize a b = true then some .first else none := by
  have hlb : b.setsListed properties = false := by
    by_contra hlb
    rw [sets_of_setsListed (Bool.not_eq_false _ ▸ hlb)] at hb
    cases hb
  have hagree := (agreeOn_of_not_setsListed hlb a).2
  unfold merge?
  rw [isEmpty_eq_not_sets, isEmpty_eq_not_sets, hb, hagree]
  cases sameSize a b with
  | false => rfl
  | true =>
    cases hla : a.setsListed properties with
    | false => rfl
    | true =>
      rw [sets_of_setsListed hla]
      rfl

/-- A component that sets nothing gives way to one that sets a listed property, and to no other. -/
theorem merge?_of_first_unset (ha : a.sets = false) :
    merge? properties a b =
      if sameSize a b = true then
        some (if b.setsListed properties = true then .second else .first)
      else none := by
  have hla : a.setsListed properties = false := by
    by_contra hla
    rw [sets_of_setsListed (Bool.not_eq_false _ ▸ hla)] at ha
    cases ha
  have hagree := (agreeOn_of_not_setsListed hla b).1
  unfold merge?
  rw [isEmpty_eq_not_sets, ha, hagree]
  cases sameSize a b <;> cases b.setsListed properties <;> rfl

section Reduction

variable {α : Type} {component : α → Component} {kept c r : α} {items before after : List α}

theorem reduceFrom_of_reduce (h : reduce component properties (kept :: items) = .kept r) :
    reduceFrom component properties kept items = some r := by
  rw [reduce] at h
  split at h
  · rename_i k hk
    rw [hk, Reduction.kept.inj h]
  · cases h

/-- Items that set nothing leave the running representative where it is. -/
theorem eq_of_reduceFrom_unset (hitems : ∀ a ∈ items, (component a).sets = false)
    (h : reduceFrom component properties kept items = some r) : r = kept := by
  induction items with
  | nil => exact (Option.some.inj h).symm
  | cons a rest ih =>
    obtain ⟨ha, hrest⟩ := List.forall_mem_cons.1 hitems
    rw [reduceFrom, merge?_of_second_unset ha] at h
    split at h
    · exact ih hrest h
    · rename_i heq
      split at heq <;> cases heq
    · cases h

/-- A run over two lists is a run over the first and then one over the second. -/
theorem reduceFrom_append (kept : α) (before after : List α) :
    reduceFrom component properties kept (before ++ after) =
      (reduceFrom component properties kept before).bind fun k =>
        reduceFrom component properties k after := by
  induction before generalizing kept with
  | nil => rfl
  | cons a rest ih =>
    rw [List.cons_append, reduceFrom, reduceFrom]
    split
    · exact ih kept
    · exact ih a
    · rfl

/-- Of items of which one alone sets anything that one is kept, if it sets a listed property. If it
does not, the first item is kept. -/
theorem eq_of_reduce_lone (hc : (component c).sets = true)
    (hothers : ∀ a ∈ before ++ after, (component a).sets = false)
    (h : reduce component properties (before ++ c :: after) = .kept r) :
    r = if (component c).setsListed properties = true then c else before.headD c := by
  have hafter : ∀ a ∈ after, (component a).sets = false :=
    fun a ha => hothers a (List.mem_append_right _ ha)
  cases before with
  | nil =>
    obtain rfl := eq_of_reduceFrom_unset hafter (reduceFrom_of_reduce h)
    exact (ite_self r).symm
  | cons first rest =>
    obtain ⟨hfirst, hrest⟩ := List.forall_mem_cons.1 fun a ha =>
      hothers a (List.mem_append_left after ha)
    have hfold : reduceFrom component properties first (rest ++ c :: after) = some r :=
      reduceFrom_of_reduce h
    rw [reduceFrom_append, Option.bind_eq_some_iff] at hfold
    obtain ⟨k, hk, hfold⟩ := hfold
    obtain rfl := eq_of_reduceFrom_unset hrest hk
    -- the first item is still there when the one that sets anything comes
    rw [reduceFrom, merge?_of_first_unset hfirst] at hfold
    by_cases hsize : sameSize (component k) (component c) = true
    · rw [if_pos hsize] at hfold
      cases hlisted : (component c).setsListed properties with
      | true =>
        rw [if_pos hlisted] at hfold
        exact eq_of_reduceFrom_unset hafter hfold
      | false =>
        rw [if_neg (Bool.eq_false_iff.1 hlisted)] at hfold
        exact eq_of_reduceFrom_unset hafter hfold
    · rw [if_neg hsize] at hfold
      cases hfold

end Reduction

/-- A component that alone sets anything is kept by every merge in which it comes first, and by
every other one if it sets a listed property. So a reduction keeps it under the same condition, and
else keeps the first component, which sets nothing. -/
theorem lone_kept (properties : List String) :
    (∀ a b, a.sets = true → b.sets = false →
      merge? properties a b = if sameSize a b = true then some .first else none) ∧
    (∀ a b, a.sets = false → b.sets = true →
      merge? properties a b =
        if sameSize a b = true then
          some (if b.setsListed properties = true then .second else .first)
        else none) ∧
    ∀ (α : Type) (component : α → Component) (entries : List (Option α)) (before after : List α)
      (c r : α), entries.reduceOption = before ++ c :: after →
      (component c).sets = true → (∀ a ∈ before ++ after, (component a).sets = false) →
      reduce component properties entries.reduceOption = .kept r →
      (before = [] ∨ (component c).setsListed properties = true → r = c) ∧
      (before ≠ [] ∧ (component c).setsListed properties = false →
        before.head? = some r ∧ (component r).explicit = .empty) := by
  refine ⟨fun a b _ hb => merge?_of_second_unset hb, fun a b ha _ => merge?_of_first_unset ha, ?_⟩
  intro α component entries before after c r hentries hc hothers h
  rw [hentries] at h
  have hr := eq_of_reduce_lone hc hothers h
  constructor
  · rintro (rfl | hlisted)
    · rwa [List.headD_nil, ite_self] at hr
    · rwa [if_pos hlisted] at hr
  · rintro ⟨hbefore, hlisted⟩
    rw [hlisted, if_neg Bool.false_ne_true] at hr
    cases before with
    | nil => exact absurd rfl hbefore
    | cons first rest =>
      obtain rfl : r = first := hr
      exact ⟨rfl, explicit_of_not_sets (hothers r List.mem_cons_self)⟩

/-- Between two axes that set nothing the one with a title is kept. -/
theorem lone_kept_titled :
    let plain := ofExplicit "concat_0_x_axis" .empty
    let titled := ofExplicit "concat_1_x_axis" ⟨[("labelFontSize", .int 20), ("title", .str "Price")]⟩
    let silent := ofExplicit "concat_2_x_axis" .empty
    reduce id Family.axis.properties [some plain, none, some titled, some silent].reduceOption =
      .kept titled ∧ plain.sets = false ∧ titled.sets = true ∧ silent.sets = false := by
  intro plain titled silent
  have hmerges : ∀ r, reduce id Family.axis.properties
      [some plain, none, some titled, some silent].reduceOption = .kept r → r = titled := by
    intro r hr
    have hothers : ∀ a ∈ [plain] ++ [silent], (id a).sets = false := by decide +kernel
    exact ((lone_kept Family.axis.properties).2.2 Component id
      [some plain, none, some titled, some silent] [plain] [silent] titled r rfl
      (by decide +kernel) hothers hr).1 (Or.inr (by decide +kernel))
  cases hreduce : reduce id Family.axis.properties
      [some plain, none, some titled, some silent].reduceOption with
  | kept r => exact ⟨by rw [hmerges r hreduce], by decide +kernel, by decide +kernel, by decide +kernel⟩
  | nothing | conflict => exact absurd hreduce (by decide +kernel)

/-- Behind an axis that sets nothing one that sets a property outside the list of its family is
dropped, and what it sets with it. -/
theorem lone_dropped :
    let plain := ofExplicit "layer_0_x_axis" .empty
    let sized := ofExplicit "layer_1_x_axis" ⟨[("labelFontSize", .int 20)]⟩
    plain.sets = false ∧ sized.sets = true ∧
      merge? Family.axis.properties plain sized = some .first ∧
      reduce id Family.axis.properties [plain, sized] = .kept plain ∧ plain ≠ sized := by
  decide +kernel

end Component

end ChartLowering
