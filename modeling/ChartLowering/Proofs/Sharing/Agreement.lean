import ChartLowering.Proofs.Json.Symmetry
import ChartLowering.Proofs.Sharing.Reduction
import Mathlib.Data.List.Pairwise
import Mathlib.Data.List.ReduceOption

/-
  When components are reduced to one.

  A reduction runs from left to right with a running representative, and prefers the first side of a
  merge unless only the second one sets anything. Its outcome does not show the order: it succeeds
  if and only if all sizes and all layers that set anything agree (`Agree`), and keeps the first item
  that sets anything, or else the first one (`representative?`). The components set compared
  properties only, so two layers agree on these if they are equal and no property is `nan`
  (`agreeOn_eq_sameLayer`), and that can be turned around and chained: it then does not matter which
  of several equal components is the running one (`Pairwise` without one of two related items).

  A layer with a `nan` is equal to itself, as everything that holds one is, but the merge compares
  property by property, where a `nan` is not. So components that set one equal layer are in conflict
  if a property of it is `nan` (`reduce_paddedTwice`), and this is the only way in which equal sizes
  and equal layers can fail to merge (`reduce_outcome`).
-/

namespace ChartLowering

/-! ## Lists of related items -/

section Related

variable {α : Type} {R : α → α → Prop} {a b : α} {l : List α}

/-- Of two related items in front the second may be left out. -/
theorem pairwise_without_second (hab : R a b) (h : ∀ x ∈ l, R a x → R b x) :
    (a :: b :: l).Pairwise R ↔ (a :: l).Pairwise R := by
  constructor
  · exact fun hall => hall.sublist ((List.sublist_cons_self b l).cons_cons a)
  · intro hrest
    obtain ⟨ha, hl⟩ := List.pairwise_cons.1 hrest
    have hb : (b :: l).Pairwise R := List.pairwise_cons.2 ⟨fun x hx => h x hx (ha x hx), hl⟩
    exact List.pairwise_cons.2 ⟨List.forall_mem_cons.2 ⟨hab, ha⟩, hb⟩

/-- Of two related items in front the first may be left out. -/
theorem pairwise_without_first (hab : R a b) (h : ∀ x ∈ l, R b x → R a x) :
    (a :: b :: l).Pairwise R ↔ (b :: l).Pairwise R := by
  constructor
  · exact List.Pairwise.of_cons
  · intro hrest
    obtain ⟨hb, -⟩ := List.pairwise_cons.1 hrest
    exact List.pairwise_cons.2 ⟨List.forall_mem_cons.2 ⟨hab, fun x hx => h x hx (hb x hx)⟩, hrest⟩

variable (symm : ∀ x ∈ l, ∀ y ∈ l, R x y → R y x)

include symm

/-- Where a relation can be turned around the order of the items does not count. -/
theorem pairwise_of_perm {m : List α} (hlm : l.Perm m) (h : l.Pairwise R) : m.Pairwise R := by
  have heither : m.Pairwise fun x y => R x y ∨ R y x :=
    (h.imp Or.inl).perm hlm fun hxy => hxy.symm
  refine heither.imp_of_mem fun hx hy hxy => ?_
  exact hxy.elim id (symm _ (hlm.mem_iff.2 hy) _ (hlm.mem_iff.2 hx))

/-- Two items of a list of related ones are the same or related. -/
theorem eq_or_related_of_mem (h : l.Pairwise R) (ha : a ∈ l) (hb : b ∈ l) : a = b ∨ R a b := by
  induction l with
  | nil => exact absurd ha List.not_mem_nil
  | cons c rest ih =>
    obtain ⟨hc, hrest⟩ := List.pairwise_cons.1 h
    rcases List.mem_cons.1 ha with rfl | harest
    · exact (List.mem_cons.1 hb).imp Eq.symm (hc b)
    · rcases List.mem_cons.1 hb with rfl | hbrest
      · exact Or.inr (symm _ List.mem_cons_self _ ha (hc a harest))
      · exact ih (fun x hx y hy => symm x (List.mem_cons_of_mem c hx) y (List.mem_cons_of_mem c hy))
          hrest harest hbrest

end Related

namespace Component

/-- Whether a component sets any property. -/
def sets (c : Component) : Bool := !c.explicit.isEmpty

/-- Whether two components set equal properties. -/
def sameExplicit (a b : Component) : Bool :=
  Json.same (.ofFields a.explicit) (.ofFields b.explicit)

/-- Whether a component sets a property to what is no number. -/
def setsNan (c : Component) : Bool := c.explicit.entries.any fun e => e.2.isNan

/-- Whether two components set equal properties, each of which is equal to itself. -/
def sameLayer (a b : Component) : Bool := sameExplicit a b && !a.setsNan

/-- Whether a component sets only listed properties, each once, and is made of values with distinct
keys. -/
structure Within (properties : List String) (c : Component) : Prop where
  keys : c.explicit.keys ⊆ properties
  explicit : (Json.ofFields c.explicit).distinctKeys = true
  size : ∀ sides, c.size = some sides → (Json.arr sides).distinctKeys = true

variable {properties : List String} {a b c : Component}

/-! ## Equal sizes and equal layers -/

theorem sameSize_trans (hab : sameSize a b = true) (hbc : sameSize b c = true) :
    sameSize a c = true :=
  Json.sameOption_trans hab hbc

theorem sameExplicit_trans (hab : sameExplicit a b = true) (hbc : sameExplicit b c = true) :
    sameExplicit a c = true :=
  Json.same_trans _ _ _ hab hbc

theorem sameLayer_iff : sameLayer a b = true ↔ sameExplicit a b = true ∧ a.setsNan = false := by
  rw [sameLayer, Bool.and_eq_true, Bool.not_eq_true']

theorem sameLayer_trans (hab : sameLayer a b = true) (hbc : sameLayer b c = true) :
    sameLayer a c = true := by
  rw [sameLayer_iff] at *
  exact ⟨sameExplicit_trans hab.1 hbc.1, hab.2⟩

theorem Within.sameSize_symm (ha : a.Within properties) (hb : b.Within properties)
    (h : sameSize a b = true) : sameSize b a = true := by
  unfold sameSize at h ⊢
  cases hsa : a.size with
  | none =>
    cases hsb : b.size with
    | none => rfl
    | some sides => rw [hsa, hsb] at h; cases h
  | some sides =>
    cases hsb : b.size with
    | none => rw [hsa, hsb] at h; cases h
    | some others =>
      rw [hsa, hsb] at h
      exact Json.same_symm _ _ (ha.size sides hsa) (hb.size others hsb) h

theorem Within.sameExplicit_symm (ha : a.Within properties) (hb : b.Within properties)
    (h : sameExplicit a b = true) : sameExplicit b a = true :=
  Json.same_symm _ _ ha.explicit hb.explicit h

/-- Everything that a layer sets is equal to itself as a member of it. -/
theorem Within.sameExplicit_self (ha : a.Within properties) : sameExplicit a a = true :=
  Json.same_refl _ ha.explicit rfl

/-- Layers are equal if one of them has whatever the other sets, as an equal member, and no more. -/
theorem sameExplicit_iff : sameExplicit a b = true ↔
    a.explicit.entries.length = b.explicit.entries.length ∧
      ∀ e ∈ a.explicit.entries, ∃ w, b.explicit.get? e.1 = some w ∧
        Json.sameMember e.2 w = true := by
  unfold sameExplicit Json.ofFields
  rw [Json.same, Bool.and_eq_true, beq_iff_eq, Json.sameFields_iff]
  rfl

theorem setsNan_eq_false_iff : a.setsNan = false ↔ ∀ e ∈ a.explicit.entries, e.2.isNan = false := by
  simp [setsNan]

/-- What is no number is found in an equal layer too. -/
theorem setsNan_of_sameExplicit (h : sameExplicit a b = true) (ha : a.setsNan = true) :
    b.setsNan = true := by
  obtain ⟨e, he, hnan⟩ := List.any_eq_true.1 ha
  obtain ⟨w, hw, hmember⟩ := (sameExplicit_iff.1 h).2 e he
  rcases Json.sameMember_iff.1 hmember with ⟨rfl, -⟩ | hsame
  · exact List.any_eq_true.2 ⟨_, OrderedMap.mem_entries_of_get? hw, hnan⟩
  · rw [Json.same_eq_false_of_isNan hnan] at hsame
    cases hsame

theorem Within.setsNan_congr (ha : a.Within properties) (hb : b.Within properties)
    (h : sameExplicit a b = true) : a.setsNan = b.setsNan :=
  Bool.eq_iff_iff.2
    ⟨setsNan_of_sameExplicit h, setsNan_of_sameExplicit (ha.sameExplicit_symm hb h)⟩

theorem Within.sameLayer_symm (ha : a.Within properties) (hb : b.Within properties)
    (h : sameLayer a b = true) : sameLayer b a = true := by
  rw [sameLayer_iff] at *
  exact ⟨ha.sameExplicit_symm hb h.1, ha.setsNan_congr hb h.1 ▸ h.2⟩

/-- Layers that agree on all compared properties have the same keys, if they set no others. -/
theorem Within.keys_perm_of_agreeOn (ha : a.Within properties) (hb : b.Within properties)
    (h : agreeOn properties a.explicit b.explicit = true) :
    a.explicit.keys.Perm b.explicit.keys := by
  refine (List.perm_ext_iff_of_nodup (Json.distinctKeys_obj ha.explicit).1
    (Json.distinctKeys_obj hb.explicit).1).2 fun k => ?_
  change k ∈ a.explicit.keys ↔ k ∈ b.explicit.keys
  rw [← OrderedMap.contains_iff_mem_keys, ← OrderedMap.contains_iff_mem_keys]
  by_cases hk : k ∈ properties
  · have hsame := List.all_eq_true.1 h k hk
    unfold OrderedMap.contains
    cases hka : a.explicit.get? k <;> cases hkb : b.explicit.get? k <;>
      simp [hka, hkb, Json.sameOption] at hsame ⊢
  · have hnone : ∀ {c : Component}, c.Within properties → ¬ c.explicit.contains k = true :=
      fun hc hcontains => hk (hc.keys ((OrderedMap.contains_iff_mem_keys _ _).1 hcontains))
    exact iff_of_false (hnone ha) (hnone hb)

/-- Of layers that agree on all compared properties the second has an equal value of whatever the
first sets, if that sets no others. -/
theorem Within.exists_same_of_agreeOn (ha : a.Within properties)
    (h : agreeOn properties a.explicit b.explicit = true) {e : String × Json}
    (he : e ∈ a.explicit.entries) :
    ∃ w, b.explicit.get? e.1 = some w ∧ Json.same e.2 w = true := by
  have hsame := List.all_eq_true.1 h e.1 (ha.keys (List.mem_map_of_mem he))
  rw [OrderedMap.get?_of_mem (Json.distinctKeys_obj ha.explicit).1 he] at hsame
  cases hkb : b.explicit.get? e.1 with
  | none => rw [hkb] at hsame; cases hsame
  | some w =>
    rw [hkb] at hsame
    exact ⟨w, rfl, hsame⟩

theorem Within.sameLayer_of_agreeOn (ha : a.Within properties) (hb : b.Within properties)
    (h : agreeOn properties a.explicit b.explicit = true) : sameLayer a b = true := by
  rw [sameLayer_iff, sameExplicit_iff, setsNan_eq_false_iff]
  refine ⟨⟨?length, fun e he => ?member⟩, fun e he => ?number⟩
  case length => simpa [OrderedMap.keys] using (ha.keys_perm_of_agreeOn hb h).length_eq
  case member =>
    obtain ⟨w, hw, hsame⟩ := ha.exists_same_of_agreeOn h he
    exact ⟨w, hw, Json.sameMember_iff.2 (.inr hsame)⟩
  case number =>
    obtain ⟨w, -, hsame⟩ := ha.exists_same_of_agreeOn h he
    refine Bool.eq_false_iff.2 fun hnan => ?_
    rw [Json.same_eq_false_of_isNan hnan] at hsame
    cases hsame

theorem Within.agreeOn_of_sameLayer (ha : a.Within properties) (h : sameLayer a b = true) :
    agreeOn properties a.explicit b.explicit = true := by
  rw [sameLayer_iff, sameExplicit_iff, setsNan_eq_false_iff] at h
  obtain ⟨hsame, hnumber⟩ := h
  refine List.all_eq_true.2 fun k _ => ?_
  cases hka : a.explicit.get? k with
  | some v =>
    have he := OrderedMap.mem_entries_of_get? hka
    obtain ⟨w, hw, hmember⟩ := hsame.2 (k, v) he
    rw [Json.sameMember_eq_same (.inl (hnumber (k, v) he))] at hmember
    rw [show b.explicit.get? k = some w from hw]
    exact hmember
  | none =>
    have hkeys := Json.keys_perm_of_sameFields (Json.distinctKeys_obj ha.explicit).1 hsame.1
      ((Json.sameFields_iff _ _).2 hsame.2)
    have hnone : b.explicit.get? k = none := by
      rw [OrderedMap.get?_eq_none_iff] at hka ⊢
      exact fun hk => hka (hkeys.mem_iff.2 hk)
    rw [hnone]
    rfl

/-- Layers of compared properties agree on these if they are equal and hold no `nan`. -/
theorem Within.agreeOn_eq_sameLayer (ha : a.Within properties) (hb : b.Within properties) :
    agreeOn properties a.explicit b.explicit = sameLayer a b :=
  Bool.eq_iff_iff.2 ⟨ha.sameLayer_of_agreeOn hb, ha.agreeOn_of_sameLayer⟩

theorem isEmpty_eq_not_sets (c : Component) : c.explicit.isEmpty = !c.sets := by
  rw [sets, Bool.not_not]

theorem explicit_of_not_sets (h : c.sets = false) : c.explicit = .empty := by
  have hnil : c.explicit.isEmpty = true := by rw [isEmpty_eq_not_sets, h]; rfl
  exact congrArg OrderedMap.mk (List.isEmpty_iff.1 hnil)

theorem setsNan_of_not_sets (h : a.sets = false) : a.setsNan = false := by
  rw [setsNan, explicit_of_not_sets h]
  rfl

/-- Layers without properties are equal. -/
theorem sameLayer_of_not_sets (ha : a.sets = false) (hb : b.sets = false) :
    sameLayer a b = true := by
  rw [sameLayer, sameExplicit, setsNan, explicit_of_not_sets ha, explicit_of_not_sets hb]
  rfl

/-- A layer with properties is not equal to one without. -/
theorem not_sameLayer (h : a.sets ≠ b.sets) : sameLayer a b = false := by
  unfold sets OrderedMap.isEmpty at h
  unfold sameLayer sameExplicit Json.ofFields
  rw [Json.same, Bool.and_eq_false_iff, Bool.and_eq_false_iff]
  refine Or.inl (Or.inl (beq_false_of_ne fun hlength => h ?_))
  rw [Bool.not_inj_iff, Bool.eq_iff_iff, List.isEmpty_iff_length_eq_zero,
    List.isEmpty_iff_length_eq_zero, hlength]

/-! ## What one merge keeps -/

/-- Of two components with equal sizes the first is kept unless only the second one sets anything;
if both do, they have to set the same, and no `nan`. -/
theorem Within.merge?_eq (ha : a.Within properties) (hb : b.Within properties) :
    merge? properties a b =
      if sameSize a b = false then none
      else if b.sets = false then some .first
      else if a.sets = false then some .second
      else if sameLayer a b = true then some .first
      else none := by
  unfold merge?
  rw [ha.agreeOn_eq_sameLayer hb, isEmpty_eq_not_sets, isEmpty_eq_not_sets]
  cases hsize : sameSize a b with
  | false => rfl
  | true =>
    cases hsa : a.sets <;> cases hsb : b.sets
    · rw [sameLayer_of_not_sets hsa hsb]
      rfl
    · rw [not_sameLayer (by rw [hsa, hsb]; decide)]
      rfl
    · rw [not_sameLayer (by rw [hsa, hsb]; decide)]
      rfl
    · cases sameLayer a b <;> rfl

/-! ## Runs of merges -/

section Reduction

variable {α : Type} (component : α → Component)

/-- The items that set anything. -/
def setters (items : List α) : List α := items.filter fun a => (component a).sets

/-- Whether all sizes agree, and all layers that set anything. -/
structure Agree (items : List α) : Prop where
  sizes : items.Pairwise fun a b => sameSize (component a) (component b) = true
  layers : (setters component items).Pairwise fun a b =>
    sameLayer (component a) (component b) = true

/-- The first item that sets anything, or else the first one. -/
def representative? (items : List α) : Option α :=
  (items.find? fun a => (component a).sets).or items.head?

variable {component} {kept a b r : α} {items rest : List α}

theorem representative?_mem (h : representative? component items = some r) : r ∈ items := by
  rcases Option.or_eq_some_iff.1 h with hfound | ⟨-, hhead⟩
  · exact List.mem_of_find?_eq_some hfound
  · exact List.mem_of_mem_head? hhead

theorem exists_representative? (hitems : items ≠ []) :
    ∃ r, representative? component items = some r := by
  cases items with
  | nil => exact absurd rfl hitems
  | cons a rest =>
    unfold representative?
    cases (a :: rest).find? fun a => (component a).sets with
    | none => exact ⟨a, rfl⟩
    | some r => exact ⟨r, rfl⟩

/-- A second item is no representative if it sets nothing, or the first one sets something. -/
theorem representative?_without_second
    (h : (component a).sets = true ∨ (component b).sets = false) :
    representative? component (a :: b :: rest) = representative? component (a :: rest) := by
  unfold representative?
  cases ha : (component a).sets with
  | true => simp [ha]
  | false =>
    have hb : (component b).sets = false := h.resolve_left (by simp [ha])
    simp [ha, hb]

/-- A first item that sets nothing gives way to a second that sets something. -/
theorem representative?_without_first (ha : (component a).sets = false)
    (hb : (component b).sets = true) :
    representative? component (a :: b :: rest) = representative? component (b :: rest) := by
  unfold representative?
  simp [ha, hb]

theorem Agree.sameSize (h : Agree component (a :: b :: rest)) :
    Component.sameSize (component a) (component b) = true :=
  (List.pairwise_cons.1 h.sizes).1 b List.mem_cons_self

theorem Agree.sameLayer (h : Agree component (a :: b :: rest)) (ha : (component a).sets = true)
    (hb : (component b).sets = true) :
    Component.sameLayer (component a) (component b) = true := by
  have hlayers := h.layers
  simp only [setters, List.filter_cons, ha, hb, if_true] at hlayers
  exact (List.pairwise_cons.1 hlayers).1 b List.mem_cons_self

/-- A later item that sets nothing may be left out if its size is equal to that of the first. -/
theorem agree_without_unset (hb : (component b).sets = false)
    (hsize : sameSize (component a) (component b) = true)
    (hturn : sameSize (component b) (component a) = true) :
    Agree component (a :: b :: rest) ↔ Agree component (a :: rest) := by
  have hsizes := pairwise_without_second (l := rest)
    (R := fun a b => sameSize (component a) (component b) = true) hsize
    fun x _ hx => sameSize_trans hturn hx
  have hlayers : setters component (a :: b :: rest) = setters component (a :: rest) := by
    simp [setters, List.filter_cons, hb]
  exact ⟨fun h => ⟨hsizes.1 h.sizes, hlayers ▸ h.layers⟩,
    fun h => ⟨hsizes.2 h.sizes, hlayers ▸ h.layers⟩⟩

/-- A first item that sets nothing may be left out if its size is equal to that of the next. -/
theorem agree_without_first (ha : (component a).sets = false)
    (hsize : sameSize (component a) (component b) = true) :
    Agree component (a :: b :: rest) ↔ Agree component (b :: rest) := by
  have hsizes := pairwise_without_first (l := rest)
    (R := fun a b => sameSize (component a) (component b) = true) hsize
    fun x _ hx => sameSize_trans hsize hx
  have hlayers : setters component (a :: b :: rest) = setters component (b :: rest) :=
    List.filter_cons_of_neg (by simp [ha])
  exact ⟨fun h => ⟨hsizes.1 h.sizes, hlayers ▸ h.layers⟩,
    fun h => ⟨hsizes.2 h.sizes, hlayers ▸ h.layers⟩⟩

/-- A later item that sets the same as the first may be left out if their sizes are equal. -/
theorem agree_without_same (ha : (component a).sets = true) (hb : (component b).sets = true)
    (hsize : sameSize (component a) (component b) = true)
    (hsizeTurn : sameSize (component b) (component a) = true)
    (hsame : sameLayer (component a) (component b) = true)
    (hsameTurn : sameLayer (component b) (component a) = true) :
    Agree component (a :: b :: rest) ↔ Agree component (a :: rest) := by
  have hsizes := pairwise_without_second (l := rest)
    (R := fun a b => sameSize (component a) (component b) = true) hsize
    fun x _ hx => sameSize_trans hsizeTurn hx
  have hlayers := pairwise_without_second (l := setters component rest)
    (R := fun a b => sameLayer (component a) (component b) = true) hsame
    fun x _ hx => sameLayer_trans hsameTurn hx
  have htwo : setters component (a :: b :: rest) = a :: b :: setters component rest := by
    simp [setters, ha, hb]
  have hone : setters component (a :: rest) = a :: setters component rest := by
    simp [setters, ha]
  constructor
  · exact fun h => ⟨hsizes.1 h.sizes, hone ▸ hlayers.1 (htwo ▸ h.layers)⟩
  · exact fun h => ⟨hsizes.2 h.sizes, htwo ▸ hlayers.2 (hone ▸ h.layers)⟩

/-- A run of merges succeeds if all items agree, and keeps their representative. -/
theorem reduceFrom_eq_some_iff (hwithin : ∀ a ∈ kept :: items, (component a).Within properties) :
    reduceFrom component properties kept items = some r ↔
      Agree component (kept :: items) ∧ representative? component (kept :: items) = some r := by
  induction items generalizing kept with
  | nil =>
    have hone : Agree component [kept] :=
      ⟨List.pairwise_singleton _ _, (List.pairwise_singleton _ kept).sublist List.filter_sublist⟩
    have hkept : representative? component [kept] = some kept := by
      unfold representative?
      cases h : (component kept).sets <;> simp [h]
    rw [reduceFrom, hkept, and_iff_right hone]
  | cons b rest ih =>
    obtain ⟨hkept, hb, hrest⟩ := by simpa only [List.forall_mem_cons] using hwithin
    rw [reduceFrom, hkept.merge?_eq hb]
    cases hsize : sameSize (component kept) (component b) with
    | false =>
      refine iff_of_false (by simp) fun h => ?_
      rw [h.1.sameSize] at hsize
      cases hsize
    | true =>
      have hturn := hkept.sameSize_symm hb hsize
      have hkeep := @ih kept (List.forall_mem_cons.2 ⟨hkept, hrest⟩)
      cases hsb : (component b).sets with
      | false =>
        -- the running representative stays
        rw [agree_without_unset hsb hsize hturn, representative?_without_second (.inr hsb)]
        exact hkeep
      | true =>
        cases hsk : (component kept).sets with
        | false =>
          -- it gives way to the first that sets anything
          rw [agree_without_first hsk hsize, representative?_without_first hsk hsb]
          exact ih (List.forall_mem_cons.2 ⟨hb, hrest⟩)
        | true =>
          cases hlayer : sameLayer (component kept) (component b) with
          | true =>
            rw [agree_without_same hsk hsb hsize hturn hlayer (hkept.sameLayer_symm hb hlayer),
              representative?_without_second (.inl hsk)]
            exact hkeep
          | false =>
            refine iff_of_false (by simp) fun h => ?_
            rw [h.1.sameLayer hsk hsb] at hlayer
            cases hlayer

theorem reduce_eq_kept_iff (hwithin : ∀ a ∈ items, (component a).Within properties) :
    reduce component properties items = .kept r ↔
      Agree component items ∧ representative? component items = some r := by
  cases items with
  | nil => exact iff_of_false (fun h => by cases h) fun h => by cases h.2
  | cons a rest =>
    rw [← reduceFrom_eq_some_iff hwithin, reduce]
    cases reduceFrom component properties a rest <;> simp

theorem reduce_eq_nothing_iff : reduce component properties items = .nothing ↔ items = [] := by
  cases items with
  | nil => exact iff_of_true rfl rfl
  | cons a rest =>
    rw [reduce]
    cases reduceFrom component properties a rest <;> simp

theorem reduce_ne_conflict_iff (hwithin : ∀ a ∈ items, (component a).Within properties) :
    reduce component properties items ≠ .conflict ↔ Agree component items := by
  constructor
  · intro hne
    cases hreduce : reduce component properties items with
    | conflict => exact absurd hreduce hne
    | nothing =>
      rw [reduce_eq_nothing_iff.1 hreduce]
      exact ⟨.nil, .nil⟩
    | kept r => exact ((reduce_eq_kept_iff hwithin).1 hreduce).1
  · intro hagree hconflict
    cases items with
    | nil => cases hconflict
    | cons a rest =>
      obtain ⟨r, hr⟩ : ∃ r, representative? component (a :: rest) = some r :=
        exists_representative? (List.cons_ne_nil a rest)
      rw [(reduce_eq_kept_iff hwithin).2 ⟨hagree, hr⟩] at hconflict
      cases hconflict

/-! ## Other orders -/

theorem Agree.perm (hwithin : ∀ a ∈ items, (component a).Within properties) {others : List α}
    (hperm : items.Perm others) (h : Agree component items) : Agree component others where
  sizes := pairwise_of_perm
    (fun x hx y hy => (hwithin x hx).sameSize_symm (hwithin y hy)) hperm h.sizes
  layers := pairwise_of_perm
    (fun x hx y hy => (hwithin x (List.mem_filter.1 hx).1).sameLayer_symm
      (hwithin y (List.mem_filter.1 hy).1)) (hperm.filter _) h.layers

/-- A representative sets something if any item does. -/
theorem representative?_sets (h : representative? component items = some r) (ha : a ∈ items)
    (hsets : (component a).sets = true) : (component r).sets = true := by
  obtain ⟨first, hfirst⟩ := Option.isSome_iff_exists.1
    (List.find?_isSome (p := fun a => (component a).sets) |>.2 ⟨a, ha, hsets⟩)
  unfold representative? at h
  rw [hfirst] at h
  obtain rfl := Option.some.inj h
  exact List.find?_some (p := fun a => (component a).sets) hfirst

/-- Representatives of one list in two orders set the same. -/
theorem Agree.representatives (hwithin : ∀ a ∈ items, (component a).Within properties)
    (h : Agree component items) {others : List α} (hperm : items.Perm others) {s : α}
    (hr : representative? component items = some r)
    (hs : representative? component others = some s) :
    sameExplicit (component r) (component s) = true := by
  have hrmem := representative?_mem hr
  have hsmem := hperm.mem_iff.2 (representative?_mem hs)
  have hself := (hwithin r hrmem).sameExplicit_self
  cases hsets : (component r).sets with
  | true =>
    have hother := representative?_sets hs (hperm.mem_iff.1 hrmem) hsets
    have hrelated := eq_or_related_of_mem
      (fun x hx y hy => (hwithin x (List.mem_filter.1 hx).1).sameLayer_symm
        (hwithin y (List.mem_filter.1 hy).1)) h.layers
      (List.mem_filter.2 ⟨hrmem, hsets⟩) (List.mem_filter.2 ⟨hsmem, hother⟩)
    rcases hrelated with rfl | hrs
    · exact hself
    · exact (sameLayer_iff.1 hrs).1
  | false =>
    have hother : (component s).sets = false := by
      by_contra hne
      rw [Bool.not_eq_false] at hne
      rw [representative?_sets hr hsmem hne] at hsets
      cases hsets
    exact (sameLayer_iff.1 (sameLayer_of_not_sets hsets hother)).1

theorem representative?_eq_none_iff : representative? component items = none ↔ items = [] := by
  constructor
  · intro hnone
    by_contra hitems
    obtain ⟨r, hr⟩ : ∃ r, representative? component items = some r :=
      exists_representative? hitems
    rw [hnone] at hr
    cases hr
  · rintro rfl
    rfl

/-- A reduction of items that agree keeps their representative. -/
theorem Agree.reduce_eq (hwithin : ∀ a ∈ items, (component a).Within properties)
    (h : Agree component items) :
    reduce component properties items =
      match representative? component items with
      | some r => .kept r
      | none => .nothing := by
  cases hr : representative? component items with
  | some r => exact (reduce_eq_kept_iff hwithin).2 ⟨h, hr⟩
  | none => exact reduce_eq_nothing_iff.2 (representative?_eq_none_iff.1 hr)

/-! ## Layers without `nan` -/

/-- What holds of the first of any two related items holds of all items, unless there is but one. -/
theorem pairwise_and_iff {R : α → α → Prop} {P : α → Prop} {l : List α}
    (hP : ∀ a ∈ l, ∀ b ∈ l, R a b → (P a ↔ P b)) :
    (l.Pairwise fun a b => R a b ∧ P a) ↔ l.Pairwise R ∧ (l.length ≤ 1 ∨ ∀ a ∈ l, P a) := by
  constructor
  · intro h
    refine ⟨h.imp And.left, ?_⟩
    match l, h, hP with
    | [], _, _ => exact .inl (Nat.zero_le 1)
    | [_], _, _ => exact .inl (Nat.le_refl 1)
    | a :: b :: rest, h, hP =>
      have hfirst := (List.pairwise_cons.1 h).1
      have ha : P a := (hfirst b List.mem_cons_self).2
      refine .inr (List.forall_mem_cons.2 ⟨ha, fun x hx => ?_⟩)
      exact (hP a List.mem_cons_self x (List.mem_cons_of_mem a hx) (hfirst x hx).1).1 ha
  · rintro ⟨hR, hshort | hall⟩
    · match l, hshort with
      | [], _ => exact .nil
      | [a], _ => exact List.pairwise_singleton _ a
    · exact hR.imp_of_mem fun ha _ hab => ⟨hab, hall _ ha⟩

/-- Items agree if their sizes and layers are equal, and no two of them set anything while one of
them sets a `nan`. -/
theorem agree_iff (hwithin : ∀ a ∈ items, (component a).Within properties) :
    Agree component items ↔
      (items.Pairwise fun a b => sameSize (component a) (component b) = true) ∧
      ((setters component items).Pairwise fun a b =>
        sameExplicit (component a) (component b) = true) ∧
      ((setters component items).length ≤ 1 ∨ ∀ a ∈ items, (component a).setsNan = false) := by
  have hmem : ∀ a ∈ setters component items, (component a).Within properties :=
    fun a ha => hwithin a (List.mem_filter.1 ha).1
  have hlayers := pairwise_and_iff (l := setters component items)
    (R := fun a b => sameExplicit (component a) (component b) = true)
    (P := fun a => (component a).setsNan = false)
    fun a ha b hb hab => by rw [(hmem a ha).setsNan_congr (hmem b hb) hab]
  -- an item that sets nothing sets no `nan` either
  have hall : (∀ a ∈ setters component items, (component a).setsNan = false) ↔
      ∀ a ∈ items, (component a).setsNan = false := by
    refine ⟨fun h a ha => ?_, fun h a ha => h a (List.mem_filter.1 ha).1⟩
    cases hsets : (component a).sets with
    | true => exact h a (List.mem_filter.2 ⟨ha, hsets⟩)
    | false => exact setsNan_of_not_sets hsets
  rw [← hall, ← hlayers]
  simp only [← sameLayer_iff]
  exact ⟨fun h => ⟨h.sizes, h.layers⟩, fun h => ⟨h.1, h.2⟩⟩

/-- What a reduction computes. Of a list with absent entries, let every component that is present
set only compared properties. Then the reduction succeeds if and only if all sizes are equal, all
layers that set anything are equal, and if two or more set anything, none of them sets a `nan`. It
keeps the first item that sets anything, or else the first one, and nothing only if there is none.
In another order it succeeds just as well, and what it keeps sets the same. -/
theorem reduce_outcome {entries : List (Option α)}
    (hwithin : ∀ a ∈ entries.reduceOption, (component a).Within properties) :
    (reduce component properties entries.reduceOption ≠ .conflict ↔
      (entries.reduceOption.Pairwise fun a b => sameSize (component a) (component b) = true) ∧
      ((setters component entries.reduceOption).Pairwise fun a b =>
        sameExplicit (component a) (component b) = true) ∧
      ((setters component entries.reduceOption).length ≤ 1 ∨
        ∀ a ∈ entries.reduceOption, (component a).setsNan = false)) ∧
    (reduce component properties entries.reduceOption ≠ .conflict →
      reduce component properties entries.reduceOption =
        match representative? component entries.reduceOption with
        | some r => .kept r
        | none => .nothing) ∧
    (representative? component entries.reduceOption = none ↔ ∀ e ∈ entries, e = none) ∧
    ∀ others : List (Option α), entries.Perm others →
      (reduce component properties others.reduceOption ≠ .conflict ↔
        reduce component properties entries.reduceOption ≠ .conflict) ∧
      ∀ r s, reduce component properties entries.reduceOption = .kept r →
        reduce component properties others.reduceOption = .kept s →
          sameExplicit (component r) (component s) = true := by
  have hsucceeds := reduce_ne_conflict_iff hwithin
  refine ⟨hsucceeds.trans (agree_iff hwithin), fun h => (hsucceeds.1 h).reduce_eq hwithin, ?_,
    fun others hothers => ?_⟩
  · rw [representative?_eq_none_iff, List.eq_nil_iff_forall_not_mem]
    simp only [List.reduceOption_mem_iff]
    constructor
    · intro habsent e he
      cases e with
      | none => rfl
      | some a => exact absurd he (habsent a)
    · exact fun hnone a ha => by cases hnone _ ha
  · have hperm : entries.reduceOption.Perm others.reduceOption := hothers.filterMap id
    have hwithin' : ∀ a ∈ others.reduceOption, (component a).Within properties :=
      fun a ha => hwithin a (hperm.mem_iff.2 ha)
    refine ⟨?_, fun r s hr hs => ?_⟩
    · rw [reduce_ne_conflict_iff hwithin', hsucceeds]
      exact ⟨fun h => h.perm hwithin' hperm.symm, fun h => h.perm hwithin hperm⟩
    · obtain ⟨hagree, hr⟩ := (reduce_eq_kept_iff hwithin).1 hr
      exact hagree.representatives hwithin hperm hr ((reduce_eq_kept_iff hwithin').1 hs).2

end Reduction

/-- A component with properties of its own only. -/
def ofExplicit (name : String) (explicit : Fields) : Component :=
  define name explicit .empty none none

/-- Of a projection that sets nothing and two of scale 200, one written as an integer and one as a
double, the first of the two is kept; with the other one in front it is that one. -/
theorem reduce_outcome_scaled :
    let plain := ofExplicit "plain" .empty
    let whole := ofExplicit "whole" ⟨[("scale", .int 200)]⟩
    let double := ofExplicit "double" ⟨[("scale", .float (.finite false (200 * 2 ^ 45) (-45)))]⟩
    reduce id ["scale"] [none, some plain, some whole, some double].reduceOption = .kept whole ∧
      sameExplicit whole double = true := by
  intro plain whole double
  have hwithin : ∀ c ∈ [none, some plain, some whole, some double].reduceOption,
      (id c).Within ["scale"] := by
    intro c hc
    obtain rfl | rfl | rfl : c = plain ∨ c = whole ∨ c = double := by
      simpa [List.reduceOption] using hc
    all_goals exact ⟨by decide, by decide, fun sides hsides => by cases hsides⟩
  obtain ⟨hsucceeds, hkept, -, horder⟩ := reduce_outcome hwithin
  have hsuccess := hsucceeds.2 ⟨by decide +kernel, by decide +kernel, by decide +kernel⟩
  refine ⟨hkept hsuccess, ?_⟩
  exact (horder [some double, some whole, none, some plain] (by decide +kernel)).2
    whole double (hkept hsuccess) (by decide +kernel)

/-- Two scales that take one padding from the configuration, which is no number, set equal layers
and are of equal size, and are in conflict. -/
theorem reduce_paddedTwice :
    let first := ofExplicit "layer_0_x" ⟨[("padding", .float (.nan 0))]⟩
    let second := ofExplicit "layer_1_x" ⟨[("padding", .float (.nan 0))]⟩
    (∀ c ∈ [some first, some second].reduceOption, c.Within Family.scale.properties) ∧
      sameSize first second = true ∧ sameExplicit first second = true ∧
      reduce id Family.scale.properties [some first, some second].reduceOption = .conflict := by
  intro first second
  refine ⟨?_, by decide +kernel, by decide +kernel, by decide +kernel⟩
  intro c hc
  obtain rfl | rfl : c = first ∨ c = second := by simpa [List.reduceOption] using hc
  all_goals exact ⟨by decide, by decide, fun sides hsides => by cases hsides⟩

end Component

end ChartLowering
