import ChartLowering.Proofs.Sharing.Settled
import Mathlib.Data.List.Nodup

/-
  Where components are merged, across the tree.

  A component is merged exactly if the parent has a component for the slot, and the parent has one
  only if a child has; so a chain of merged components leads from every component upwards to a live
  one (`endOf?`), and every live component is reached from some unit. `Promoted` collects this with
  what the name maps hold, and `promoted_resolved` says that resolved trees are so.
-/

namespace ChartLowering

namespace View

/-! ## Names of components -/

/-- The names of a view's components of a family. -/
def componentNames (v : View) (f : Family) : List String := (v.componentsOf f).map Component.name

theorem names_asMade (v : View) {f : Family} {kind : NameKind} (hkind : f.nameKind? = some kind) :
    v.asMade.scope.names kind = (v.scope.names kind).reset := by
  cases f <;> cases hkind <;> rfl

theorem componentNames_asMade (v : View) (f : Family) :
    componentNames v.asMade f = componentNames v f := by
  unfold componentNames componentsOf
  show List.map Component.name (List.filterMap _ (List.map _ v.components.entries)) = _
  rw [List.filterMap_map, List.map_filterMap, List.map_filterMap]
  congr 1
  funext e
  show Option.map Component.name (if e.1.family = f then some e.2.unmerged else none) =
    Option.map Component.name (if e.1.family = f then some e.2 else none)
  split <;> rfl

/-- The components of a family have different names. -/
theorem Made.nodup_names {v : View} (h : v.Made) (f : Family) : (componentNames v f).Nodup := by
  have hentries : componentNames v f =
      ((v.components.keys.filter fun s => s.family = f).map fun s =>
        v.componentName s.family s.channel) := by
    have hnamed : ∀ e ∈ v.components.entries,
        e.2.name = v.componentName e.1.family e.1.channel := fun e he =>
      h.named e.1 e.2 (OrderedMap.get?_of_mem h.nodup he)
    unfold componentNames componentsOf OrderedMap.keys
    generalize v.components.entries = entries at hnamed ⊢
    induction entries with
    | nil => rfl
    | cons e rest ih =>
      obtain ⟨he, hrest⟩ := List.forall_mem_cons.1 hnamed
      by_cases hf : e.1.family = f
      · subst hf
        simp [ih hrest, he]
      · simp [hf, ih hrest]
  rw [hentries]
  refine List.Nodup.map_on ?_ (h.nodup.filter _)
  intro s hs t ht hname
  rw [List.mem_filter, decide_eq_true_eq] at hs ht
  exact componentName_injective v (h.slots s hs.1) (h.slots t ht.1) (hs.2.trans ht.2.symm) hname

/-- A name map has one entry for each component of its kind, wherever it was handed over. -/
theorem keys_names {v : View} (h : v.asMade.Made) {f : Family} {kind : NameKind}
    (hkind : f.nameKind? = some kind) :
    (v.scope.names kind).keys = componentNames v f := by
  rw [← NameMap.keys_reset, ← names_asMade v hkind, ← componentNames_asMade]
  unfold OrderedMap.keys componentNames
  rw [h.scope f kind hkind, List.map_map]
  rfl

end View

namespace ViewTree

open View

/-! ## Components by address -/

/-- The component that the node at an address has for a slot. -/
def componentAt? (t : ViewTree) (s : Slot) (a : List Nat) : Option Component :=
  (t.locate? a).bind fun l => l.tree.label.components.get? s

/-- The address of the live component that the component at an address ended up in: while the
component is merged, the parent's component of the slot is looked at. -/
def endOf? (t : ViewTree) (s : Slot) : List Nat → Option (List Nat)
  | [] => (t.componentAt? s []).bind fun k => if k.merged then none else some []
  | i :: a => (t.componentAt? s (i :: a)).bind fun k =>
    if k.merged then endOf? t s a else some (i :: a)

theorem componentAt?_eq_some {t : ViewTree} {s : Slot} {a : List Nat} {k : Component} :
    t.componentAt? s a = some k ↔
      ∃ l, t.locate? a = some l ∧ l.tree.label.components.get? s = some k :=
  Option.bind_eq_some_iff

theorem componentAt?_of_locate? {t : ViewTree} {a : List Nat} {l : Located View}
    (h : t.locate? a = some l) (s : Slot) :
    t.componentAt? s a = l.tree.label.components.get? s := by
  rw [componentAt?, h, Option.bind_some]

theorem endOf?_of_live {t : ViewTree} {s : Slot} {a : List Nat} {k : Component}
    (h : t.componentAt? s a = some k) (hlive : k.merged = false) : t.endOf? s a = some a := by
  cases a <;> rw [endOf?, h, Option.bind_some, hlive] <;> rfl

theorem endOf?_of_merged {t : ViewTree} {s : Slot} {i : Nat} {a : List Nat} {k : Component}
    (h : t.componentAt? s (i :: a) = some k) (hmerged : k.merged = true) :
    t.endOf? s (i :: a) = t.endOf? s a := by
  rw [endOf?, h, Option.bind_some, hmerged]
  rfl

/-- A component ends at its view or above it. -/
theorem endOf?_suffix {t : ViewTree} {s : Slot} {a b : List Nat} (h : t.endOf? s a = some b) :
    b <:+ a := by
  induction a with
  | nil =>
    obtain ⟨k, -, h⟩ := Option.bind_eq_some_iff.1 h
    split at h
    · cases h
    · cases h
      exact List.suffix_rfl
  | cons i a ih =>
    obtain ⟨k, -, h⟩ := Option.bind_eq_some_iff.1 h
    split at h
    · exact (ih h).trans (List.suffix_cons i a)
    · cases h
      exact List.suffix_rfl

theorem isSome_of_endOf? {t : ViewTree} {s : Slot} {a b : List Nat} (h : t.endOf? s a = some b) :
    (t.componentAt? s a).isSome = true := by
  cases a with
  | nil =>
    obtain ⟨k, hk, -⟩ := Option.bind_eq_some_iff.1 h
    rw [hk]
    rfl
  | cons i a =>
    obtain ⟨k, hk, -⟩ := Option.bind_eq_some_iff.1 h
    rw [hk]
    rfl

/-- The component at an end is live. -/
theorem live_of_endOf? {t : ViewTree} {s : Slot} {a b : List Nat} (h : t.endOf? s a = some b)
    {k : Component} (hk : t.componentAt? s b = some k) : k.merged = false := by
  induction a with
  | nil =>
    obtain ⟨j, hj, h⟩ := Option.bind_eq_some_iff.1 h
    split at h
    · cases h
    · rename_i hlive
      cases h
      obtain rfl := Option.some.inj (hj.symm.trans hk)
      simpa using hlive
  | cons i a ih =>
    obtain ⟨j, hj, h⟩ := Option.bind_eq_some_iff.1 h
    split at h
    · exact ih h
    · rename_i hlive
      cases h
      obtain rfl := Option.some.inj (hj.symm.trans hk)
      simpa using hlive

/-- How the components of a resolved tree hang together. -/
structure Promoted (t : ViewTree) : Prop where
  /-- The components of the root are live. -/
  root : ∀ s k, t.componentAt? s [] = some k → k.merged = false
  /-- Any other component is merged if and only if the parent has one for the slot. -/
  merged_iff : ∀ i a s k, t.componentAt? s (i :: a) = some k →
    (k.merged = true ↔ (t.componentAt? s a).isSome = true)
  /-- A composite has a component only over components of its children, all of them merged. -/
  shared : ∀ a l s, t.locate? a = some l → (∀ u, l.tree.label.form ≠ .unit u) →
    (t.componentAt? s a).isSome = true →
      (∃ i k, t.componentAt? s (i :: a) = some k) ∧
        ∀ i k, t.componentAt? s (i :: a) = some k → k.merged = true
  /-- A name map has one entry for each component of its kind. -/
  names : ∀ a l f kind, t.locate? a = some l → f.nameKind? = some kind →
    (l.tree.label.scope.names kind).keys = componentNames l.tree.label f ∧
      (componentNames l.tree.label f).Nodup
  /-- A live component's name stands for itself. -/
  kept : ∀ a l s k kind, t.locate? a = some l → l.tree.label.components.get? s = some k →
    s.family.nameKind? = some kind → k.merged = false →
      (l.tree.label.scope.names kind).get? k.name = some k.name
  /-- A merged component's name is assigned the name of the parent's component. -/
  renamed : ∀ i a l s k kind, t.locate? (i :: a) = some l →
    l.tree.label.components.get? s = some k → s.family.nameKind? = some kind → k.merged = true →
      ∃ j, t.componentAt? s a = some j ∧
        (l.tree.label.scope.names kind).get? k.name = some j.name
  /-- Every component ends in a live one. -/
  ends : ∀ a s k, t.componentAt? s a = some k →
    ∃ b j, t.endOf? s a = some b ∧ t.componentAt? s b = some j ∧ j.merged = false
  /-- Every live component is the end of some unit's. -/
  reached : ∀ b s j, t.componentAt? s b = some j → j.merged = false →
    ∃ a l u, t.locate? a = some l ∧ l.tree.label.form = .unit u ∧
      (t.componentAt? s a).isSome = true ∧ t.endOf? s a = some b

variable {config : Config} {settings : Settings} {t : ViewTree}

/-! ## A child beneath its parent -/

theorem componentAt?_cons {s : Slot} {i : Nat} {a : List Nat} {k : Component} :
    t.componentAt? s (i :: a) = some k ↔
      ∃ p u, t.locate? a = some p ∧ p.tree.children[i]? = some u ∧
        u.label.components.get? s = some k := by
  rw [componentAt?_eq_some]
  constructor
  · rintro ⟨l, hl, hk⟩
    obtain ⟨p, u, hp, hu, rfl⟩ := Tree.locate?_cons.1 hl
    exact ⟨p, u, hp, hu, hk⟩
  · rintro ⟨p, u, hp, hu, hk⟩
    exact ⟨p.child u, Tree.locate?_cons.2 ⟨p, u, hp, hu, rfl⟩, hk⟩

/-- A child's component is merged if and only if the parent has one for the slot. -/
theorem Settled.merged_iff {p : Located View} (h : Settled config settings p) {u : ViewTree}
    (hu : u ∈ p.tree.children) (hchild : Settled config settings (p.child u)) {s : Slot}
    {k : Component} (hk : u.label.components.get? s = some k) :
    k.merged = true ↔ (p.tree.label.components.get? s).isSome = true := by
  have hs : s ∈ sharingOrder := hchild.mem_sharingOrder hk
  have hmade : u.label.asMade.Made := hchild.made
  rw [h.get?_child hu s] at hk
  by_cases hp : (p.tree.label.components.get? s).isSome = true
  · rw [if_pos ⟨hs, hp⟩, Option.map_eq_some_iff] at hk
    obtain ⟨j, -, rfl⟩ := hk
    exact ⟨fun _ => hp, fun _ => rfl⟩
  · rw [if_neg fun hc => hp hc.2] at hk
    have hlive := hmade.live s k hk
    exact ⟨fun hm => absurd (hlive.symm.trans hm) Bool.false_ne_true, fun hc => absurd hc hp⟩

/-- A composite has a component only over a child's. -/
theorem Settled.exists_child {l : Located View} (h : Settled config settings l)
    (hform : ∀ u, l.tree.label.form ≠ .unit u) {s : Slot} {k : Component}
    (hk : l.tree.label.components.get? s = some k) :
    ∃ u ∈ l.tree.children, ∃ j, u.label.components.get? s = some j := by
  obtain ⟨-, r, hr, -⟩ := h.sharedFrom hform hk
  obtain ⟨u, hu, j, hj, -⟩ := mem_presentAt.1 (Component.mem_of_reduce hr)
  exact ⟨u, hu, j, hj⟩

/-- The name assigned to a child's component: the parent's component's, or its own. -/
theorem Settled.get?_names_child {p : Located View} (h : Settled config settings p) {u : ViewTree}
    (hu : u ∈ p.tree.children) (hchild : Settled config settings (p.child u)) {s : Slot}
    {k : Component} (hk : u.label.components.get? s = some k) {kind : NameKind}
    (hkind : s.family.nameKind? = some kind) :
    (u.label.scope.names kind).get? k.name =
      some (((p.tree.label.components.get? s).map Component.name).getD k.name) := by
  have hmade : u.label.asMade.Made := hchild.made
  have hs : s ∈ sharingOrder := hchild.mem_sharingOrder hk
  have hnames := get?_names_handOverAll hmade p.tree.label.asMade nodup_sharingOrder
    (get?_asMade_of_some hk) hkind
  rw [← h.label_child hu, if_pos hs] at hnames
  show (u.label.scope.names kind).get? k.unmerged.name = _
  rw [hnames, nameAfter, get?_asMade]
  cases p.tree.label.components.get? s <;> rfl

/-! ## The whole tree -/

/-- A node and its parent, by address. -/
theorem locate?_parent {i : Nat} {a : List Nat} {l : Located View}
    (h : t.locate? (i :: a) = some l) :
    ∃ p, t.locate? a = some p ∧ l.tree ∈ p.tree.children ∧ l = p.child l.tree := by
  obtain ⟨p, u, hp, hu, rfl⟩ := Tree.locate?_cons.1 h
  exact ⟨p, hp, List.mem_of_getElem? hu, rfl⟩

/-- From a component downwards, through merged ones, to that of a unit. -/
theorem IsResolved.exists_unit_below (hresolved : IsResolved config settings t) :
    ∀ l ∈ t.walk [], ∀ b s, t.locate? b = some l → (t.componentAt? s b).isSome = true →
      ∃ a p u, t.locate? a = some p ∧ p.tree.label.form = .unit u ∧
        (t.componentAt? s a).isSome = true ∧ t.endOf? s a = t.endOf? s b := by
  apply Tree.forall_walk_up
  intro l hl ih b s hb hsome
  have h := hresolved.settled l hl
  by_cases hform : ∃ u, l.tree.label.form = .unit u
  · obtain ⟨u, hu⟩ := hform
    exact ⟨b, l, u, hb, hu, hsome, rfl⟩
  · obtain ⟨k, hk⟩ := Option.isSome_iff_exists.1 hsome
    rw [componentAt?_of_locate? hb] at hk
    obtain ⟨c, hc, j, hj⟩ := h.exists_child (not_exists.1 hform) hk
    obtain ⟨i, hi⟩ := List.mem_iff_getElem?.1 hc
    have hib : t.locate? (i :: b) = some (l.child c) := Tree.locate?_cons.2 ⟨l, c, hb, hi, rfl⟩
    have hmerged : j.merged = true := by
      rw [h.merged_iff hc (hresolved.settled _ (Tree.child_mem_walk hl hc)) hj, hk]
      rfl
    have hat : t.componentAt? s (i :: b) = some j := componentAt?_eq_some.2 ⟨l.child c, hib, hj⟩
    obtain ⟨a, p, u, hp, hu, ha, hend⟩ := ih c hc (i :: b) s hib (by rw [hat]; rfl)
    exact ⟨a, p, u, hp, hu, ha, hend.trans (endOf?_of_merged hat hmerged)⟩

theorem IsResolved.settledAt (h : IsResolved config settings t) {a : List Nat} {l : Located View}
    (hl : t.locate? a = some l) : Settled config settings l :=
  h.settled l (Tree.mem_walk_of_locate? hl)

theorem IsResolved.live_root (h : IsResolved config settings t) {s : Slot} {k : Component}
    (hk : t.componentAt? s [] = some k) : k.merged = false :=
  h.root.live s k hk

theorem IsResolved.merged_iff (h : IsResolved config settings t) {i : Nat} {a : List Nat} {s : Slot}
    {k : Component} (hk : t.componentAt? s (i :: a) = some k) :
    k.merged = true ↔ (t.componentAt? s a).isSome = true := by
  obtain ⟨l, hl, hk⟩ := componentAt?_eq_some.1 hk
  obtain ⟨p, hp, hu, hpl⟩ := locate?_parent hl
  have hchild := h.settledAt hl
  rw [hpl] at hchild
  rw [componentAt?_of_locate? hp]
  exact (h.settledAt hp).merged_iff hu hchild hk

/-- The name assigned to a component below the root: the parent's component's, or its own. -/
theorem IsResolved.get?_names_below (h : IsResolved config settings t) {i : Nat} {a : List Nat}
    {l : Located View} {s : Slot} {k : Component} {kind : NameKind}
    (hl : t.locate? (i :: a) = some l) (hk : l.tree.label.components.get? s = some k)
    (hkind : s.family.nameKind? = some kind) :
    (l.tree.label.scope.names kind).get? k.name =
      some (((t.componentAt? s a).map Component.name).getD k.name) := by
  obtain ⟨p, hp, hu, hpl⟩ := locate?_parent hl
  have hchild := h.settledAt hl
  rw [hpl] at hchild
  rw [componentAt?_of_locate? hp]
  exact (h.settledAt hp).get?_names_child hu hchild hk hkind

/-- From a component upwards, through merged ones, to a live one: what relates the component of every
composite to those of its children relates the live one to all that end in it. -/
theorem IsResolved.related_end (h : IsResolved config settings t) {s : Slot}
    {R : Component → Component → Prop} (refl : ∀ k, R k k)
    (trans : ∀ {i j k}, R i j → R j k → R i k)
    (step : ∀ l ∈ t.walk [], ∀ u ∈ l.tree.children, ∀ k j, l.tree.label.components.get? s = some k →
      u.label.components.get? s = some j → R k j) (a : List Nat) :
    ∀ k, t.componentAt? s a = some k → ∃ b j, t.endOf? s a = some b ∧
      t.componentAt? s b = some j ∧ j.merged = false ∧ R j k := by
  induction a with
  | nil =>
    intro k hk
    have hlive := h.live_root hk
    exact ⟨[], k, endOf?_of_live hk hlive, hk, hlive, refl k⟩
  | cons i a ih =>
    intro k hk
    cases hmerged : k.merged with
    | false => exact ⟨i :: a, k, endOf?_of_live hk hmerged, hk, hmerged, refl k⟩
    | true =>
      obtain ⟨j, hj⟩ := Option.isSome_iff_exists.1 ((h.merged_iff hk).1 hmerged)
      obtain ⟨b, m, hb, hm, hlive, hrelated⟩ := ih j hj
      refine ⟨b, m, (endOf?_of_merged hk hmerged).trans hb, hm, hlive, trans hrelated ?_⟩
      obtain ⟨p, u, hp, hu, hku⟩ := componentAt?_cons.1 hk
      rw [componentAt?_of_locate? hp] at hj
      exact step p (Tree.mem_walk_of_locate? hp) u (List.mem_of_getElem? hu) j k hj hku

theorem IsResolved.exists_end (h : IsResolved config settings t) {s : Slot} (a : List Nat) (k : Component)
    (hk : t.componentAt? s a = some k) :
    ∃ b j, t.endOf? s a = some b ∧ t.componentAt? s b = some j ∧ j.merged = false := by
  obtain ⟨b, j, hb, hj, hlive, -⟩ := h.related_end (R := fun _ _ => True) (fun _ => trivial)
    (fun _ _ => trivial) (fun _ _ _ _ _ _ _ _ => trivial) a k hk
  exact ⟨b, j, hb, hj, hlive⟩

/-- Resolved trees are promoted. -/
theorem IsResolved.promoted (h : IsResolved config settings t) : Promoted t := by
  refine ⟨fun s k hk => h.live_root hk, fun i a s k hk => h.merged_iff hk, ?shared, ?names, ?kept,
    ?renamed, fun a s k hk => h.exists_end a k hk, ?reached⟩
  case shared =>
    intro a l s hl hform hsome
    refine ⟨?_, fun i k hk => (h.merged_iff hk).2 hsome⟩
    rw [componentAt?_of_locate? hl] at hsome
    obtain ⟨k, hk⟩ := Option.isSome_iff_exists.1 hsome
    obtain ⟨u, hu, j, hj⟩ := (h.settledAt hl).exists_child hform hk
    obtain ⟨i, hi⟩ := List.mem_iff_getElem?.1 hu
    exact ⟨i, j, componentAt?_cons.2 ⟨l, u, hl, hi, hj⟩⟩
  case names =>
    intro a l f kind hl hkind
    have hmade := (h.settledAt hl).made
    rw [← componentNames_asMade]
    exact ⟨(keys_names hmade hkind).trans (componentNames_asMade _ f).symm, hmade.nodup_names f⟩
  case kept =>
    intro a l s k kind hl hk hkind hlive
    cases a with
    | nil =>
      obtain rfl : ⟨t, []⟩ = l := Option.some.inj hl
      exact h.root.get?_names hk hkind
    | cons i a =>
      have hnone : t.componentAt? s a = none := by
        have hiff := h.merged_iff (componentAt?_eq_some.2 ⟨l, hl, hk⟩)
        rw [hlive] at hiff
        exact Option.not_isSome_iff_eq_none.1 fun hsome => Bool.false_ne_true (hiff.2 hsome)
      rw [h.get?_names_below hl hk hkind, hnone]
      rfl
  case renamed =>
    intro i a l s k kind hl hk hkind hmerged
    have hsome := (h.merged_iff (componentAt?_eq_some.2 ⟨l, hl, hk⟩)).1 hmerged
    obtain ⟨j, hj⟩ := Option.isSome_iff_exists.1 hsome
    refine ⟨j, hj, ?_⟩
    rw [h.get?_names_below hl hk hkind, hj]
    rfl
  case reached =>
    intro b s j hj hlive
    obtain ⟨l, hl, -⟩ := componentAt?_eq_some.1 hj
    obtain ⟨a, p, u, hp, hu, ha, hend⟩ := h.exists_unit_below l
      (Tree.mem_walk_of_locate? hl) b s hl (by rw [hj]; rfl)
    exact ⟨a, p, u, hp, hu, ha, hend.trans (endOf?_of_live hj hlive)⟩

/-- In the resolved tree of every specification, merged flags, parents' components and name maps
are in step, and every component ends in one live component. -/
theorem promoted_resolved (settings : Settings) (t : TopLevelSpec) :
    Promoted (t.resolved settings) :=
  (isResolved_resolved settings t).promoted

end ViewTree

end ChartLowering
