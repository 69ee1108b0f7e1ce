import ChartLowering.Proofs.Names.Placed
import ChartLowering.Proofs.Sharing.Promotion

/-
  What the names of components are looked up to.

  A look-up passes a name through the scopes of a view and of all views above it. Users may name
  views so that a component has the name of an unrelated one further up, which then renames it
  again. Still a component's name never gets lost: in a scope that has the name, it stands for a
  component of that view or of its parent, and a scope that does not have it leaves it alone
  (`lookup_live_or_same`). Without names of users nothing collides, and the name is looked up to
  that of the component's own end (`lookup_end`).
-/

namespace ChartLowering

namespace View

/-- A name is that of a component of a family. -/
theorem mem_componentNames {v : View} (h : v.components.keys.Nodup) {f : Family} {n : String} :
    n ∈ componentNames v f ↔
      ∃ s k, v.components.get? s = some k ∧ s.family = f ∧ k.name = n := by
  unfold componentNames componentsOf
  rw [List.mem_map]
  constructor
  · rintro ⟨k, hk, rfl⟩
    obtain ⟨⟨s, j⟩, he, hj⟩ := List.mem_filterMap.1 hk
    split at hj
    · rename_i hf
      obtain rfl : j = k := Option.some.inj hj
      exact ⟨s, j, OrderedMap.get?_of_mem h he, hf, rfl⟩
    · cases hj
  · rintro ⟨s, k, hk, hf, rfl⟩
    refine ⟨k, List.mem_filterMap.2 ⟨(s, k), OrderedMap.mem_entries_of_get? hk, ?_⟩, rfl⟩
    rw [if_pos hf]

end View

namespace ViewTree

open View

/-- Whether a name is that of a live component of a family at an address or above it. -/
def IsLiveName (t : ViewTree) (f : Family) (a : List Nat) (n : String) : Prop :=
  ∃ b s k, b <:+ a ∧ s.family = f ∧ t.componentAt? s b = some k ∧ k.merged = false ∧ k.name = n

theorem IsLiveName.above {t : ViewTree} {f : Family} {a : List Nat} {n : String}
    (h : t.IsLiveName f a n) (i : Nat) : t.IsLiveName f (i :: a) n := by
  obtain ⟨b, s, k, hb, hk⟩ := h
  exact ⟨b, s, k, hb.trans (List.suffix_cons i a), hk⟩

/-- A name as seen from a located view. -/
def seenFrom (l : Located View) (kind : NameKind) (name : String) : String :=
  l.tree.label.lookup l.above kind name

theorem seenFrom_root (t : ViewTree) (kind : NameKind) (n : String) :
    seenFrom ⟨t, []⟩ kind n = (t.label.scope.names kind).assigned n := rfl

theorem seenFrom_child (p : Located View) (u : ViewTree) (kind : NameKind) (n : String) :
    seenFrom (p.child u) kind n = seenFrom p kind ((u.label.scope.names kind).assigned n) := rfl

variable {config : Config} {settings : Settings} {t : ViewTree} {f : Family} {kind : NameKind}

/-! ## One scope -/

namespace IsResolved

variable (h : IsResolved config settings t)

include h

theorem mem_componentNames {a : List Nat} {l : Located View} (hl : t.locate? a = some l)
    {n : String} :
    n ∈ componentNames l.tree.label f ↔
      ∃ s k, l.tree.label.components.get? s = some k ∧ s.family = f ∧ k.name = n :=
  View.mem_componentNames (h.settledAt hl).nodup

/-- A scope leaves a name alone that no component of the view has. -/
theorem assigned_of_notMem (hkind : f.nameKind? = some kind) {a : List Nat} {l : Located View}
    (hl : t.locate? a = some l) {n : String} (hn : n ∉ componentNames l.tree.label f) :
    (l.tree.label.scope.names kind).assigned n = n := by
  rw [← (h.promoted.names a l f kind hl hkind).1] at hn
  unfold NameMap.assigned
  rw [(OrderedMap.get?_eq_none_iff _ n).2 hn]
  rfl

theorem assigned_of_live {s : Slot} (hkind : s.family.nameKind? = some kind) {a : List Nat}
    {l : Located View} (hl : t.locate? a = some l) {k : Component}
    (hk : l.tree.label.components.get? s = some k) (hlive : k.merged = false) :
    (l.tree.label.scope.names kind).assigned k.name = k.name := by
  unfold NameMap.assigned
  rw [h.promoted.kept a l s k kind hl hk hkind hlive]
  rfl

theorem assigned_of_merged {s : Slot} (hkind : s.family.nameKind? = some kind) {i : Nat}
    {a : List Nat} {l : Located View} (hl : t.locate? (i :: a) = some l) {k : Component}
    (hk : l.tree.label.components.get? s = some k) (hmerged : k.merged = true) :
    ∃ j, t.componentAt? s a = some j ∧
      (l.tree.label.scope.names kind).assigned k.name = j.name := by
  obtain ⟨j, hj, hget⟩ := h.promoted.renamed i a l s k kind hl hk hkind hmerged
  refine ⟨j, hj, ?_⟩
  unfold NameMap.assigned
  rw [hget]
  rfl

/-! ## All scopes -/

/-- A name is looked up to that of a live component at the view or above it, or it is no
component's of the view and is let be. -/
theorem lookup_live_or_same (hkind : f.nameKind? = some kind) (a : List Nat) :
    ∀ l n, t.locate? a = some l →
      t.IsLiveName f a (seenFrom l kind n) ∨
        seenFrom l kind n = n ∧ n ∉ componentNames l.tree.label f := by
  induction a with
  | nil =>
    intro l n hl
    obtain rfl : ⟨t, []⟩ = l := Option.some.inj hl
    rw [seenFrom_root]
    by_cases hn : n ∈ componentNames t.label f
    · obtain ⟨s, k, hk, rfl, rfl⟩ := (h.mem_componentNames hl).1 hn
      have hlive := h.root.live s k hk
      rw [h.assigned_of_live hkind hl hk hlive]
      exact Or.inl ⟨[], s, k, List.suffix_rfl, rfl, hk, hlive, rfl⟩
    · exact Or.inr ⟨h.assigned_of_notMem hkind hl hn, hn⟩
  | cons i a ih =>
    intro l n hl
    obtain ⟨p, hp, hu, hpl⟩ := locate?_parent hl
    have hstep : seenFrom l kind n =
        seenFrom p kind ((l.tree.label.scope.names kind).assigned n) := by
      rw [hpl, seenFrom_child]
      rfl
    rw [hstep]
    by_cases hn : n ∈ componentNames l.tree.label f
    · obtain ⟨s, k, hk, rfl, rfl⟩ := (h.mem_componentNames hl).1 hn
      refine Or.inl ?_
      cases hmerged : k.merged with
      | false =>
        rw [h.assigned_of_live hkind hl hk hmerged]
        rcases ih p k.name hp with hlive | ⟨hsame, -⟩
        · exact hlive.above i
        · rw [hsame]
          exact ⟨i :: a, s, k, List.suffix_rfl, rfl, componentAt?_eq_some.2 ⟨l, hl, hk⟩, hmerged,
            rfl⟩
      | true =>
        obtain ⟨j, hj, hassigned⟩ := h.assigned_of_merged hkind hl hk hmerged
        rw [hassigned]
        -- the new name is that of a component of the parent, so it does not get past it unseen
        rcases ih p j.name hp with hlive | ⟨-, hnone⟩
        · exact hlive.above i
        · rw [componentAt?_of_locate? hp] at hj
          exact absurd ((h.mem_componentNames hp).2 ⟨s, j, hj, rfl, rfl⟩) hnone
    · rw [h.assigned_of_notMem hkind hl hn]
      rcases ih p n hp with hlive | ⟨hsame, -⟩
      · exact Or.inl (hlive.above i)
      · exact Or.inr ⟨hsame, hn⟩

/-- A component's name is looked up to that of a live component at the view or above it. -/
theorem lookup_component {s : Slot} (hkind : s.family.nameKind? = some kind) {a : List Nat}
    {l : Located View} (hl : t.locate? a = some l) {k : Component}
    (hk : l.tree.label.components.get? s = some k) :
    t.IsLiveName s.family a (seenFrom l kind k.name) := by
  rcases h.lookup_live_or_same hkind a l k.name hl with hlive | ⟨-, hnone⟩
  · exact hlive
  · exact absurd ((h.mem_componentNames hl).2 ⟨s, k, hk, rfl, rfl⟩) hnone

end IsResolved

/-! ## Without names of users -/

theorem underscore_notMem_suffix : ∀ s ∈ sharingOrder, s.family.nameKind?.isSome = true →
    '_' ∉ (s.family.suffix s.channel).toList := by
  decide +kernel

/-- Component names at a view and at one below it differ, if the lower is named by its place. -/
theorem componentName_ne_of_placed {v w : View} (h : IsPlaced v.name w.name) {s r : Slot}
    (hs : s ∈ sharingOrder) (hr : r ∈ sharingOrder) (hskind : s.family.nameKind?.isSome = true) :
    v.componentName s.family s.channel ≠ w.componentName r.family r.channel := by
  obtain ⟨position, hposition, hname⟩ := h
  intro heq
  unfold componentName partName at heq
  rw [hname, Text.qualified_join v.name hposition.2] at heq
  have hsuffix := Text.qualified_injective (isPart_suffix s hs)
    (Text.isPart_join hposition.1 (isPart_suffix r hr)) heq
  apply underscore_notMem_suffix s hs hskind
  rw [hsuffix]
  exact Text.underscore_mem_join hposition.2

namespace IsResolved

variable (h : IsResolved config settings t)
  (hplaced : t.Everywhere fun u => PlacedNames (u.map View.name))

include h hplaced

/-- A component's name is that of no other component at the view or above it. -/
theorem eq_of_name_eq {s r : Slot} (hkind : s.family.nameKind?.isSome = true)
    (hf : r.family = s.family) {a b : List Nat} (hb : b <:+ a) {k j : Component}
    (hk : t.componentAt? s a = some k) (hj : t.componentAt? r b = some j)
    (hname : j.name = k.name) : b = a ∧ r = s := by
  obtain ⟨c, rfl⟩ := hb
  obtain ⟨l, hl, hk⟩ := componentAt?_eq_some.1 hk
  obtain ⟨p, hp, hj⟩ := componentAt?_eq_some.1 hj
  have hls := h.settledAt hl
  have hps := h.settledAt hp
  have hkname := hls.name_eq hk
  have hjname := hps.name_eq hj
  by_cases hc : c = []
  · subst hc
    obtain rfl : p = l := Option.some.inj (hp.symm.trans hl)
    refine ⟨rfl, componentName_injective p.tree.label (hps.mem_sharingOrder hj)
      (hls.mem_sharingOrder hk) hf ?_⟩
    rw [← hjname, ← hkname, hname]
  · have hbelow := name_below hplaced hp hl hc
    have hrkind : r.family.nameKind?.isSome = true := by rw [hf]; exact hkind
    exact absurd (hjname.symm.trans (hname.trans hkname))
      (componentName_ne_of_placed hbelow (hps.mem_sharingOrder hj) (hls.mem_sharingOrder hk) hrkind)

/-- No two components at a view and above it have one name. -/
theorem eq_of_name_eq_of_suffix {s r : Slot} (hkind : s.family.nameKind?.isSome = true)
    (hf : r.family = s.family) {a b c : List Nat} (hb : b <:+ a) (hc : c <:+ a) {k j : Component}
    (hk : t.componentAt? s b = some k) (hj : t.componentAt? r c = some j)
    (hname : j.name = k.name) : c = b ∧ r = s := by
  rcases List.suffix_or_suffix_of_suffix hb hc with hbc | hcb
  · have hrkind : r.family.nameKind?.isSome = true := by rw [hf]; exact hkind
    obtain ⟨hab, hsr⟩ := h.eq_of_name_eq hplaced hrkind hf.symm hbc hj hk hname.symm
    exact ⟨hab.symm, hsr.symm⟩
  · exact h.eq_of_name_eq hplaced hkind hf hcb hk hj hname

/-- Further up, a component's name is left alone. -/
theorem seenFrom_of_below (hkind : f.nameKind? = some kind) {s : Slot} (hf : s.family = f)
    {a : List Nat} {k : Component} (hk : t.componentAt? s a = some k) (b : List Nat) :
    ∀ p, t.locate? b = some p → b <:+ a → b ≠ a → seenFrom p kind k.name = k.name := by
  have hfresh : ∀ b p, t.locate? b = some p → b <:+ a → b ≠ a →
      (p.tree.label.scope.names kind).assigned k.name = k.name := by
    intro b p hp hb hba
    apply h.assigned_of_notMem hkind hp
    intro hmem
    obtain ⟨r, j, hj, hr, hname⟩ := (h.mem_componentNames hp).1 hmem
    have hsome : s.family.nameKind?.isSome = true := by rw [hf, hkind]; rfl
    exact hba (h.eq_of_name_eq hplaced hsome (hr.trans hf.symm) hb hk
      (componentAt?_eq_some.2 ⟨p, hp, hj⟩) hname).1
  induction b with
  | nil =>
    intro p hp hb hba
    have hassigned := hfresh [] p hp hb hba
    obtain rfl : ⟨t, []⟩ = p := Option.some.inj hp
    exact hassigned
  | cons i b ih =>
    intro p hp hb hba
    obtain ⟨q, hq, hu, hqp⟩ := locate?_parent hp
    have hassigned := hfresh (i :: b) p hp hb hba
    have hbsuffix : b <:+ a := (List.suffix_cons i b).trans hb
    have hbne : b ≠ a := by
      intro he
      have hlength := hb.length_le
      rw [he, List.length_cons] at hlength
      omega
    rw [hqp, seenFrom_child, hassigned]
    exact ih q hq hbsuffix hbne

/-- A component's name is looked up to that of the live component in which it ended. -/
theorem lookup_end {s : Slot} (hkind : s.family.nameKind? = some kind) (a : List Nat) :
    ∀ l k, t.locate? a = some l → l.tree.label.components.get? s = some k →
      ∃ b j, t.endOf? s a = some b ∧ t.componentAt? s b = some j ∧ j.merged = false ∧
        seenFrom l kind k.name = j.name := by
  induction a with
  | nil =>
    intro l k hl hk
    have hat := componentAt?_eq_some.2 ⟨l, hl, hk⟩
    have hlive := h.live_root hat
    refine ⟨[], k, endOf?_of_live hat hlive, hat, hlive, ?_⟩
    have hassigned := h.assigned_of_live hkind hl hk hlive
    obtain rfl : ⟨t, []⟩ = l := Option.some.inj hl
    exact hassigned
  | cons i a ih =>
    intro l k hl hk
    have hat := componentAt?_eq_some.2 ⟨l, hl, hk⟩
    obtain ⟨p, hp, hu, hpl⟩ := locate?_parent hl
    cases hmerged : k.merged with
    | false =>
      refine ⟨i :: a, k, endOf?_of_live hat hmerged, hat, hmerged, ?_⟩
      have hne : a ≠ i :: a := fun he => by
        have hlength := congrArg List.length he
        rw [List.length_cons] at hlength
        omega
      have hassigned := h.assigned_of_live hkind hl hk hmerged
      rw [hpl, seenFrom_child, hassigned]
      exact h.seenFrom_of_below hplaced hkind rfl hat a p hp (List.suffix_cons i a) hne
    | true =>
      obtain ⟨j, hj, hassigned⟩ := h.assigned_of_merged hkind hl hk hmerged
      rw [componentAt?_of_locate? hp] at hj
      obtain ⟨b, m, hb, hm, hlive, hseen⟩ := ih p j hp hj
      refine ⟨b, m, (endOf?_of_merged hat hmerged).trans hb, hm, hlive, ?_⟩
      rw [hpl, seenFrom_child, hassigned]
      exact hseen

end IsResolved

end ViewTree

end ChartLowering
