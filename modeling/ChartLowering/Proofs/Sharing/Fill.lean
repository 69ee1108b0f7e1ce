import ChartLowering.Resolve.Composite
import ChartLowering.Proofs.Text.Qualified

/-
  Filling the slots of a view.

  A unit and a composite get their components in the same way: slot by slot in `sharingOrder`, each
  from the view as it is by then. `fill` is this with the making of a component as a parameter. What
  is made for a slot depends on no other slot, except that a guide reads the view's scale of its
  channel, and scales are filled first. So in the filled view every slot holds what would be made for
  it from the filled view itself (`get?_fill`).

  `Made` is the state of a view whose components its parent has not touched: all are live, named by
  their slots, and the scope has exactly one entry for each, under its own name.
-/

namespace ChartLowering

/-- A component before it is merged into another one. -/
def Component.unmerged (k : Component) : Component := { k with merged := false }

theorem Component.unmerged_of_live {k : Component} (h : k.merged = false) : k.unmerged = k := by
  cases k
  cases h
  rfl

/-- The same names, each standing for itself. -/
def NameMap.reset (m : NameMap) : NameMap := ⟨m.keys.map fun n => (n, n)⟩

namespace View

/-- The view before it has any components. -/
def blank (v : View) : View :=
  { v with components := .empty, scope := { v.scope with scales := .empty, projections := .empty } }

/-- The view as it was made, before its parent merged any of its components. -/
def asMade (v : View) : View :=
  { v with
    components := v.components.mapValues Component.unmerged
    scope := { v.scope with
      scales := v.scope.scales.reset
      projections := v.scope.projections.reset } }

/-- The components of a family in the order in which they were made. -/
def componentsOf (v : View) (f : Family) : List Component :=
  v.components.entries.filterMap fun e => if e.1.family = f then some e.2 else none

/-! ## Slots and names -/

theorem nodup_sharingOrder : sharingOrder.Nodup := by decide

/-- The scale of a guide's channel comes before the guide. -/
def ScalesFirst (slots : List Slot) : Prop :=
  slots.Pairwise fun s t => ¬(t.family = .scale ∧ t.channel = s.channel)

theorem scalesFirst_sharingOrder : ScalesFirst sharingOrder := by
  unfold ScalesFirst
  decide

/-- The slots of scales and guides are those of channels. -/
theorem channel_ne_none : ∀ s ∈ sharingOrder, s.family ≠ .projection → s.channel ≠ none := by
  decide

theorem isPart_suffix : ∀ s ∈ sharingOrder, Text.IsPart (s.family.suffix s.channel) := by
  decide +kernel

theorem suffix_injective : ∀ s ∈ sharingOrder, ∀ t ∈ sharingOrder, s.family = t.family →
    s.family.suffix s.channel = t.family.suffix t.channel → s = t := by
  decide +kernel

/-- The components of a family are named differently. -/
theorem componentName_injective (v : View) {s t : Slot} (hs : s ∈ sharingOrder)
    (ht : t ∈ sharingOrder) (hf : s.family = t.family)
    (h : v.componentName s.family s.channel = v.componentName t.family t.channel) : s = t :=
  suffix_injective s hs t ht hf (Text.qualified_injective (isPart_suffix s hs) (isPart_suffix t ht) h)

theorem nameKind?_injective {f g : Family} {kind : NameKind} (hf : f.nameKind? = some kind)
    (hg : g.nameKind? = some kind) : f = g := by
  cases f <;> cases g <;> first | rfl | (cases hf <;> cases hg)

/-! ## Adopting a component -/

theorem blank_adopt (v : View) (f : Family) (c : Option Channel) (k : Component) :
    (v.adopt f c k).blank = v.blank := by
  cases f <;> rfl

theorem components_adopt (v : View) (f : Family) (c : Option Channel) (k : Component) :
    (v.adopt f c k).components = v.components.insert ⟨f, c⟩ k := by
  cases f <;> rfl

theorem names_adopt (v : View) (f : Family) (c : Option Channel) (k : Component)
    (kind : NameKind) :
    (v.adopt f c k).scope.names kind =
      if f.nameKind? = some kind then (v.scope.names kind).seed k.name else v.scope.names kind := by
  cases f <;> cases kind <;> rfl

/-! ## What a bare view has -/

section BareView

variable {v w : View} (h : v.blank = w.blank)

include h

theorem name_eq_of_blank_eq : v.name = w.name := by
  show v.blank.name = w.blank.name
  rw [h]

theorem form_eq_of_blank_eq : v.form = w.form := by
  show v.blank.form = w.blank.form
  rw [h]

theorem signals_eq_of_blank_eq : v.scope.signals = w.scope.signals := by
  show v.blank.scope.signals = w.blank.scope.signals
  rw [h]

theorem partName_eq_of_blank_eq (part : String) : v.partName part = w.partName part := by
  unfold partName
  rw [name_eq_of_blank_eq h]

theorem componentName_eq_of_blank_eq (f : Family) (c : Option Channel) :
    v.componentName f c = w.componentName f c := by
  unfold componentName
  exact partName_eq_of_blank_eq h _

end BareView

/-! ## Made views -/

/-- The state of a view whose components its parent has not touched. -/
structure Made (v : View) : Prop where
  slots : ∀ s ∈ v.components.keys, s ∈ sharingOrder
  nodup : v.components.keys.Nodup
  live : ∀ s k, v.components.get? s = some k → k.merged = false
  named : ∀ s k, v.components.get? s = some k → k.name = v.componentName s.family s.channel
  scope : ∀ f kind, f.nameKind? = some kind →
    (v.scope.names kind).entries = (v.componentsOf f).map fun k => (k.name, k.name)

theorem made_blank (v : View) : v.blank.Made where
  slots := fun s h => absurd h List.not_mem_nil
  nodup := List.nodup_nil
  live := fun s k h => nomatch h
  named := fun s k h => nomatch h
  scope := by
    intro f kind h
    cases f <;> cases h <;> rfl

/-- The name of a new component is new to the scope. -/
theorem Made.name_notMem {v : View} (h : v.Made) {s : Slot} (hs : s ∈ sharingOrder)
    (hnone : v.components.get? s = none) {kind : NameKind} (hkind : s.family.nameKind? = some kind) :
    v.componentName s.family s.channel ∉ (v.scope.names kind).keys := by
  intro hmem
  unfold OrderedMap.keys at hmem
  rw [h.scope s.family kind hkind, List.map_map, List.mem_map] at hmem
  obtain ⟨k, hk, hname⟩ := hmem
  obtain ⟨⟨t, k'⟩, he, hek⟩ := List.mem_filterMap.1 hk
  split at hek
  · rename_i hfam
    obtain rfl : k' = k := Option.some.inj hek
    have hget := OrderedMap.get?_of_mem h.nodup he
    have ht := h.slots t (OrderedMap.mem_keys_of_get? hget)
    have hst : t = s := by
      apply componentName_injective v ht hs hfam
      rw [← h.named t k' hget]
      exact hname
    rw [hst, hnone] at hget
    cases hget
  · cases hek

theorem entries_seed_of_notMem {m : NameMap} {n : String} (h : n ∉ m.keys) :
    (m.seed n).entries = m.entries ++ [(n, n)] := by
  unfold NameMap.seed OrderedMap.insertIfNew
  rw [if_neg (mt (OrderedMap.contains_iff_mem_keys m n).1 h),
    OrderedMap.entries_insert_of_notMem h]

/-- A view that adopts a live component under its proper name is as good as before. -/
theorem Made.adopt {v : View} (h : v.Made) {s : Slot} (hs : s ∈ sharingOrder)
    (hnone : v.components.get? s = none) {k : Component} (hlive : k.merged = false)
    (hname : k.name = v.componentName s.family s.channel) :
    (v.adopt s.family s.channel k).Made := by
  have hnew : s ∉ v.components.keys := (OrderedMap.get?_eq_none_iff _ s).1 hnone
  have hentries : (v.adopt s.family s.channel k).components.entries =
      v.components.entries ++ [(s, k)] := by
    rw [components_adopt]
    exact OrderedMap.entries_insert_of_notMem hnew k
  have hget : ∀ t j, (v.adopt s.family s.channel k).components.get? t = some j →
      t = s ∧ j = k ∨ v.components.get? t = some j := by
    intro t j hj
    rw [components_adopt, OrderedMap.get?_insert] at hj
    split at hj
    · rename_i hts
      exact Or.inl ⟨hts, (Option.some.inj hj).symm⟩
    · exact Or.inr hj
  have hcomponentName : ∀ f c, (v.adopt s.family s.channel k).componentName f c =
      v.componentName f c :=
    componentName_eq_of_blank_eq (blank_adopt v s.family s.channel k)
  refine ⟨?_, ?_, ?_, ?_, ?_⟩
  · intro t ht
    rw [components_adopt, OrderedMap.keys_insert, if_neg hnew] at ht
    rcases List.mem_append.1 ht with ht | ht
    · exact h.slots t ht
    · rw [List.mem_singleton.1 ht]
      exact hs
  · rw [components_adopt]
    exact OrderedMap.nodup_keys_insert h.nodup _ k
  · intro t j hj
    rcases hget t j hj with ⟨-, rfl⟩ | hj
    · exact hlive
    · exact h.live t j hj
  · intro t j hj
    rw [hcomponentName]
    rcases hget t j hj with ⟨rfl, rfl⟩ | hj
    · exact hname
    · exact h.named t j hj
  · intro f kind hkind
    unfold componentsOf
    rw [hentries, List.filterMap_append, List.map_append, names_adopt]
    by_cases hf : s.family = f
    · subst hf
      have hfresh := h.name_notMem hs hnone hkind
      rw [← hname] at hfresh
      rw [if_pos hkind, entries_seed_of_notMem hfresh, h.scope s.family kind hkind]
      simp [componentsOf]
    · have hkind' : ¬ s.family.nameKind? = some kind := fun hk => hf (nameKind?_injective hk hkind)
      rw [if_neg hkind', h.scope f kind hkind]
      simp [componentsOf, hf]

/-! ## Filling -/

/-- Makes the components of some slots one after another, each from the view as it is by then. -/
def fill (make : View → Slot → Option Component) (slots : List Slot) (v : View) : View :=
  slots.foldl (fun v s => match make v s with
    | some k => v.adopt s.family s.channel k
    | none => v) v

/-- What is made for a slot depends on the bare view, and for a guide on the scale of its channel. -/
def IsLocal (make : View → Slot → Option Component) : Prop :=
  ∀ v w s, v.blank = w.blank →
    (s.family.isGuide = true → v.component? .scale s.channel = w.component? .scale s.channel) →
    make v s = make w s

variable {make : View → Slot → Option Component}

theorem fill_append (slots rest : List Slot) (v : View) :
    fill make (slots ++ rest) v = fill make rest (fill make slots v) := by
  unfold fill
  rw [List.foldl_append]

theorem blank_fill (slots : List Slot) (v : View) : (fill make slots v).blank = v.blank := by
  induction slots generalizing v with
  | nil => rfl
  | cons s rest ih =>
    unfold fill at ih ⊢
    rw [List.foldl_cons, ih]
    split
    · exact blank_adopt v _ _ _
    · rfl

theorem get?_fill_of_notMem {slots : List Slot} {t : Slot} (ht : t ∉ slots) (v : View) :
    (fill make slots v).components.get? t = v.components.get? t := by
  induction slots generalizing v with
  | nil => rfl
  | cons s rest ih =>
    rw [List.mem_cons, not_or] at ht
    unfold fill at ih ⊢
    rw [List.foldl_cons, ih ht.2]
    split
    · rw [components_adopt]
      exact OrderedMap.get?_insert_of_ne _ _ ht.1
    · rfl

/-- Slots are filled in their order. -/
theorem keys_fill {slots : List Slot} (hnodup : slots.Nodup) {v : View}
    (hnone : ∀ s ∈ slots, v.components.get? s = none) :
    ∃ used, used.Sublist slots ∧
      (fill make slots v).components.keys = v.components.keys ++ used := by
  induction slots generalizing v with
  | nil => exact ⟨[], List.Sublist.refl [], (List.append_nil _).symm⟩
  | cons s rest ih =>
    obtain ⟨hs, hrest⟩ := List.nodup_cons.1 hnodup
    unfold fill at ih ⊢
    rw [List.foldl_cons]
    cases make v s with
    | none =>
      obtain ⟨used, hused, hkeys⟩ := ih hrest fun t ht => hnone t (List.mem_cons_of_mem s ht)
      exact ⟨used, hused.cons s, hkeys⟩
    | some k =>
      have hnew : s ∉ v.components.keys :=
        (OrderedMap.get?_eq_none_iff _ s).1 (hnone s List.mem_cons_self)
      have hnone' : ∀ t ∈ rest, (v.adopt s.family s.channel k).components.get? t = none := by
        intro t ht
        have hts : t ≠ s := fun he => hs (he ▸ ht)
        rw [components_adopt, OrderedMap.get?_insert_of_ne _ _ hts]
        exact hnone t (List.mem_cons_of_mem s ht)
      obtain ⟨used, hused, hkeys⟩ := ih hrest hnone'
      refine ⟨s :: used, hused.cons_cons s, hkeys.trans ?_⟩
      rw [components_adopt, OrderedMap.keys_insert, if_neg hnew, List.append_assoc]
      rfl

/-- In a filled view every slot holds what is made for it from that view. -/
theorem get?_fill {slots : List Slot} (hlocal : IsLocal make) (hnodup : slots.Nodup)
    (hscales : ScalesFirst slots) {v : View} (hnone : ∀ s ∈ slots, v.components.get? s = none) :
    ∀ s ∈ slots, (fill make slots v).components.get? s = make (fill make slots v) s := by
  induction slots generalizing v with
  | nil => exact fun s hs => absurd hs List.not_mem_nil
  | cons s rest ih =>
    rw [List.nodup_cons] at hnodup
    obtain ⟨hfirst, hscales⟩ := List.pairwise_cons.1 hscales
    generalize hw : (match make v s with
      | some k => v.adopt s.family s.channel k
      | none => v) = w
    have hfill : fill make (s :: rest) v = fill make rest w := by
      unfold fill
      rw [List.foldl_cons, hw]
    have hget : w.components.get? s = make v s := by
      rw [← hw]
      split
      · rename_i k hk
        rw [components_adopt, hk]
        exact OrderedMap.get?_insert_self _ _ k
      · rename_i hk
        rw [hk]
        exact hnone s List.mem_cons_self
    have hother : ∀ t, t ≠ s → w.components.get? t = v.components.get? t := by
      intro t hts
      rw [← hw]
      split
      · rw [components_adopt]
        exact OrderedMap.get?_insert_of_ne _ _ hts
      · rfl
    have hblank : w.blank = v.blank := by
      rw [← hw]
      split
      · exact blank_adopt v _ _ _
      · rfl
    rw [hfill]
    intro t ht
    rcases List.mem_cons.1 ht with rfl | ht
    · rw [get?_fill_of_notMem hnodup.1, hget]
      apply hlocal
      · rw [blank_fill, hblank]
      · -- the slot is a guide's, so its scale is not its own slot and none of those that follow
        intro hguide
        have hself : (⟨.scale, t.channel⟩ : Slot) ≠ t := by
          intro he
          rw [← he] at hguide
          cases hguide
        have hrest : (⟨.scale, t.channel⟩ : Slot) ∉ rest := fun hm => hfirst _ hm ⟨rfl, rfl⟩
        show v.components.get? _ = (fill make rest w).components.get? _
        rw [get?_fill_of_notMem hrest, hother _ hself]
    · have hts : ∀ r ∈ rest, r ≠ s := fun r hr he => hnodup.1 (he ▸ hr)
      refine ih hnodup.2 hscales ?_ t ht
      intro r hr
      rw [hother r (hts r hr)]
      exact hnone r (List.mem_cons_of_mem s hr)

/-- Filling a blank view with live, properly named components makes it. -/
theorem made_fill {slots : List Slot}
    (hmake : ∀ v s k, make v s = some k →
      k.merged = false ∧ k.name = v.componentName s.family s.channel)
    (hslots : ∀ s ∈ slots, s ∈ sharingOrder) (hnodup : slots.Nodup) {v : View} (h : v.Made)
    (hnone : ∀ s ∈ slots, v.components.get? s = none) : (fill make slots v).Made := by
  induction slots generalizing v with
  | nil => exact h
  | cons s rest ih =>
    rw [List.nodup_cons] at hnodup
    unfold fill at ih ⊢
    rw [List.foldl_cons]
    have hrest : ∀ t ∈ rest, t ∈ sharingOrder := fun t ht => hslots t (List.mem_cons_of_mem s ht)
    cases hk : make v s with
    | none => exact ih hrest hnodup.2 h fun t ht => hnone t (List.mem_cons_of_mem s ht)
    | some k =>
      obtain ⟨hlive, hname⟩ := hmake v s k hk
      have hs : s ∈ sharingOrder := hslots s List.mem_cons_self
      refine ih hrest hnodup.2 (h.adopt hs (hnone s List.mem_cons_self) hlive hname) ?_
      intro t ht
      have hts : t ≠ s := fun he => hnodup.1 (he ▸ ht)
      rw [components_adopt, OrderedMap.get?_insert_of_ne _ _ hts]
      exact hnone t (List.mem_cons_of_mem s ht)

/-! ## Made views are as made -/

@[simp] theorem blank_asMade (v : View) : v.asMade.blank = v.blank := rfl

theorem get?_asMade (v : View) (s : Slot) :
    v.asMade.components.get? s = (v.components.get? s).map Component.unmerged :=
  OrderedMap.get?_mapValues _ _ s

theorem Made.asMade_eq {v : View} (h : v.Made) : v.asMade = v := by
  have hreset (f : Family) (kind : NameKind) (hf : f.nameKind? = some kind) :
      (v.scope.names kind).reset = v.scope.names kind := by
    have hs := h.scope f kind hf
    generalize v.scope.names kind = m at hs
    obtain ⟨l⟩ := m
    have hl : l = (v.componentsOf f).map fun k => (k.name, k.name) := hs
    rw [hl]
    simp [NameMap.reset, OrderedMap.keys, Function.comp_def]
  have hmap : v.components.mapValues Component.unmerged = v.components := by
    have hlive : ∀ e ∈ v.components.entries, (e.1, e.2.unmerged) = e := by
      intro e he
      rw [Component.unmerged_of_live (h.live e.1 e.2 (OrderedMap.get?_of_mem h.nodup he))]
    unfold OrderedMap.mapValues
    rw [List.map_congr_left hlive, List.map_id']
  have hscales := hreset .scale .scale rfl
  have hprojections := hreset .projection .projection rfl
  unfold asMade
  rw [hmap]
  show { v with scope := ⟨_, v.scope.scales.reset, v.scope.projections.reset⟩ } = v
  rw [show v.scope.scales.reset = v.scope.scales from hscales,
    show v.scope.projections.reset = v.scope.projections from hprojections]

end View

end ChartLowering
