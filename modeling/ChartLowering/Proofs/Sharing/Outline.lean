import ChartLowering.Proofs.Names.Enclosed

/-
  Components of a view inside another one, and by itself.

  What a view makes for a slot, and whether it shares the components of its children, depends on names
  in nothing but the name of the component and the scale that a guide refers to. The rest of it is the
  component's outline. So the scales and guides of an enclosed tree have the same outlines in both
  trees (`Encloses.outline_eq`). If the enclosing view shares none of them they are also merged alike,
  and a scale is looked up to the same one (`Encloses.lookup_eq`). Projections are left out: they may
  be shared with those of other views.
-/

namespace ChartLowering

/-- A component but for its name, the scale that a guide refers to, and whether it is merged. -/
def Component.outline (f : Family) (k : Component) : Component :=
  { k with
    name := ""
    implicit := if f.isGuide then k.implicit.filterKeys (· != "scale") else k.implicit
    merged := false }

namespace View

open Component

variable {config : Config} {settings : Settings} {above above' : List View} {u : UnitSpec}
  {v w : View} {kids kids' : List View} {s : Slot}

/-! ## Units -/

/-- A guide depends on the scale beside it only by referring to it. -/
theorem outline_unitGuide? {f : Family} {c : Channel} (hguide : f.isGuide = true)
    (hscale : (v.component? .scale (some c)).isSome = (w.component? .scale (some c)).isSome) :
    (unitGuide? config v u f c).map (outline f) = (unitGuide? config w u f c).map (outline f) := by
  unfold unitGuide?
  cases u.channel? c with
  | none => rfl
  | some d =>
    cases hv : v.component? .scale (some c) with
    | none =>
      cases hw : w.component? .scale (some c) with
      | none => rfl
      | some k => rw [hv, hw] at hscale; cases hscale
    | some k =>
      cases hw : w.component? .scale (some c) with
      | none => rw [hv, hw] at hscale; cases hscale
      | some j =>
        simp only
        split
        · rfl
        · simp [outline, define, guideDefaults, OrderedMap.filterKeys, hguide]

/-- What a unit makes for a slot depends on its name and its signals only where names are written. -/
theorem outline_unitComponent? (hs : s.family ≠ .projection)
    (hscale : s.family.isGuide = true → (v.component? .scale s.channel).isSome =
      (w.component? .scale s.channel).isSome) :
    (unitComponent? config settings above u v s).map (outline s.family) =
      (unitComponent? config settings above' u w s).map (outline s.family) := by
  obtain ⟨f, c⟩ := s
  cases f with
  | projection => exact absurd rfl hs
  | scale =>
    cases c with
    | none => rfl
    | some c =>
      show (unitScale? config v u c).map _ = (unitScale? config w u c).map _
      unfold unitScale?
      cases u.channel? c with
      | none => rfl
      | some d =>
        simp only
        split <;> rfl
  | axis =>
    cases c with
    | none => rfl
    | some c => exact outline_unitGuide? rfl (hscale rfl)
  | legend =>
    cases c with
    | none => rfl
    | some c => exact outline_unitGuide? rfl (hscale rfl)

/-! ## Composites -/

theorem outline_sharedComponent (v : View) (f : Family) (c : Option Channel) (r : Component)
    (present : List Component) :
    (v.sharedComponent f c r present).outline f =
      { name := ""
        explicit := (r.outline f).specified
        implicit := (r.outline f).implicit.filterKeys (· != "name")
        specified := (r.outline f).specified
        size := (r.outline f).size
        data := gatherFit present
        merged := false } := by
  unfold sharedComponent
  cases hf : f.isGuide with
  | false => simp [outline, define, hf]
  | true =>
    cases v.component? .scale c with
    | none => simp [outline, define, hf, OrderedMap.filterKeys_comm]
    | some scale =>
      simp [outline, define, derive, hf, OrderedMap.filterKeys_insert, OrderedMap.filterKeys_comm]

theorem gatherFit_map_outline (f : Family) (present : List Component) :
    gatherFit (present.map (outline f)) = gatherFit present := by
  unfold gatherFit
  rw [List.filterMap_map]
  rfl

/-- What a composite shares in a slot depends on names only where they are written. -/
theorem outline_sharedAt? (hform : v.form = w.form)
    (hscale : s.family.isGuide = true → (v.liveComponent? .scale s.channel).isSome =
      (w.liveComponent? .scale s.channel).isSome)
    (hpresent : (presentAt kids s).map (outline s.family) =
      (presentAt kids' s).map (outline s.family)) :
    (sharedAt? kids v s).map (outline s.family) = (sharedAt? kids' w s).map (outline s.family) := by
  have hmay : v.mayShare s.family s.channel = w.mayShare s.family s.channel := by
    have hmode : ∀ g d, v.resolveMode g d = w.resolveMode g d := by
      intro g d
      unfold resolveMode kind
      rw [hform]
    obtain ⟨f, c⟩ := s
    unfold mayShare
    simp only [hmode]
    cases f <;> cases c <;> first | rfl | simp only [hscale rfl]
  have hreduce : (reduce id s.family.properties (presentAt kids s)).map (outline s.family) =
      (reduce id s.family.properties (presentAt kids' s)).map (outline s.family) := by
    have himage : ∀ items, reduce id s.family.properties (items.map (outline s.family)) =
        (reduce id s.family.properties items).map (outline s.family) :=
      reduce_map fun _ _ => rfl
    rw [← himage, ← himage, hpresent]
  have hgather : gatherFit (presentAt kids s) = gatherFit (presentAt kids' s) := by
    rw [← gatherFit_map_outline s.family, hpresent, gatherFit_map_outline]
  unfold sharedAt?
  rw [hmay]
  split
  · cases hr : reduce id s.family.properties (presentAt kids s) <;>
      cases hr' : reduce id s.family.properties (presentAt kids' s) <;> rw [hr, hr'] at hreduce <;>
      first | rfl | cases hreduce | skip
    rename_i r r'
    have hkept : r.outline s.family = r'.outline s.family := Reduction.kept.inj hreduce
    simp only [Option.map_some, outline_sharedComponent, hkept, hgather]
  · rfl

theorem outline_asMade (v : View) (s : Slot) :
    (v.asMade.components.get? s).map (outline s.family) =
      (v.components.get? s).map (outline s.family) := by
  rw [get?_asMade, Option.map_map]
  rfl

theorem liveComponent?_asMade (v : View) (f : Family) (c : Option Channel) :
    v.asMade.liveComponent? f c = v.asMade.component? f c := by
  unfold liveComponent? component?
  rw [get?_asMade]
  cases v.components.get? ⟨f, c⟩ <;> rfl

end View

namespace ViewTree

open View Component

variable {config : Config} {settings : Settings} {t u : ViewTree}

/-! ## One node -/

/-- The outlines of what is present in a slot of children are those of the children's components. -/
theorem outline_presentAt (kids : List ViewTree) (s : Slot) :
    (presentAt (kids.map fun t => t.label.asMade) s).map (outline s.family) =
      (kids.map fun t => (t.label.components.get? s).map (outline s.family)).filterMap id := by
  rw [presentAt_asMade, List.map_filterMap, List.filterMap_map]
  congr 1
  funext t
  show Option.map _ (Option.map _ _) = Option.map _ _
  rw [Option.map_map]
  rfl

/-- Two nodes of one form whose children have the same outlines in a slot have the same outline in
it, for a guide if they have the scale beside it alike. -/
theorem Settled.outline_eq {l m : Located View} (hl : Settled config settings l)
    (hm : Settled config settings m) (hform : l.tree.label.form = m.tree.label.form) {s : Slot}
    (hs : s.family ≠ .projection)
    (hscale : s.family.isGuide = true →
      (l.tree.label.components.get? ⟨.scale, s.channel⟩).isSome =
        (m.tree.label.components.get? ⟨.scale, s.channel⟩).isSome)
    (hkids : (l.tree.children.map fun w => (w.label.components.get? s).map (outline s.family)) =
      m.tree.children.map fun w => (w.label.components.get? s).map (outline s.family)) :
    (l.tree.label.components.get? s).map (outline s.family) =
      (m.tree.label.components.get? s).map (outline s.family) := by
  by_cases hmem : s ∈ sharingOrder
  · have hscale : s.family.isGuide = true →
        (l.tree.label.asMade.component? .scale s.channel).isSome =
          (m.tree.label.asMade.component? .scale s.channel).isSome := by
      intro hguide
      unfold component?
      rw [isSome_get?_asMade, isSome_get?_asMade]
      exact hscale hguide
    rw [← outline_asMade l.tree.label, ← outline_asMade m.tree.label]
    by_cases hunit : ∃ u, m.tree.label.form = .unit u
    · obtain ⟨u, hu⟩ := hunit
      rw [hl.get?_unit (hform.trans hu) hmem, hm.get?_unit hu hmem]
      exact outline_unitComponent? hs hscale
    · have hunit := not_exists.1 hunit
      rw [hl.get?_composite (fun u hu => hunit u (hform.symm.trans hu)) hmem,
        hm.get?_composite hunit hmem]
      refine outline_sharedAt? hform ?_ ?_
      · rw [liveComponent?_asMade, liveComponent?_asMade]
        exact hscale
      · rw [outline_presentAt, outline_presentAt, hkids]
  · -- no node has anything in the slot
    have hnone : ∀ n, Settled config settings n → n.tree.label.components.get? s = none := by
      intro n hn
      cases hk : n.tree.label.components.get? s with
      | none => rfl
      | some k => exact absurd (hn.mem_sharingOrder hk) hmem
    rw [hnone l hl, hnone m hm]

/-! ## Enclosed trees -/

namespace Encloses

variable {outer : String} {i : Nat} (h : Encloses outer i t u) (ht : IsResolved config settings t)
  (hu : IsResolved config settings u)

include h ht hu

/-- Scales and guides have the same outlines in both trees. -/
theorem outline_eq : ∀ m ∈ u.walk [], ∀ a l, u.locate? a = some m → t.locate? (a ++ [i]) = some l →
    ∀ s : Slot, s.family ≠ .projection → (l.tree.label.components.get? s).map (outline s.family) =
      (m.tree.label.components.get? s).map (outline s.family) := by
  apply Tree.forall_walk_up
  intro m hmem ih a l hm hl s hs
  have hshape := h.tree_eq hl hm
  have hkids : ∀ s : Slot, s.family ≠ .projection →
      (l.tree.children.map fun w => (w.label.components.get? s).map (outline s.family)) =
        m.tree.children.map fun w => (w.label.components.get? s).map (outline s.family) := by
    intro s hs
    refine map_eq_map_of_getElem? (Tree.length_children_of_map_eq hshape) ?_
    intro j w w' hw hw'
    exact ih w' (List.mem_of_getElem? hw') (j :: a) (l.child w)
      (Tree.locate?_cons.2 ⟨m, w', hm, hw', rfl⟩) (Tree.locate?_cons.2 ⟨l, w, hl, hw, rfl⟩) s hs
  have hnode := fun s hs hscale => (ht.settledAt hl).outline_eq (hu.settled m hmem)
    (h.form_eq hl hm) (s := s) hs hscale (hkids s hs)
  refine hnode s hs fun _ => ?_
  have hscale := hnode ⟨.scale, s.channel⟩ nofun nofun
  rw [← Option.isSome_map, hscale, Option.isSome_map]

variable (hapart : ∀ s : Slot, s.family ≠ .projection → t.label.components.get? s = none)

omit hapart in
theorem isSome_componentAt? {a : List Nat} {m : Located View} (hm : u.locate? a = some m) {s : Slot}
    (hs : s.family ≠ .projection) :
    (t.componentAt? s (a ++ [i])).isSome = (u.componentAt? s a).isSome := by
  obtain ⟨l, hl, -⟩ := h.exists_outer hm
  have houtline := h.outline_eq ht hu m (Tree.mem_walk_of_locate? hm) a l hm hl s hs
  rw [componentAt?_of_locate? hl, componentAt?_of_locate? hm, ← Option.isSome_map, houtline,
    Option.isSome_map]

include hapart

/-- Scales and guides are merged in both trees or in none, if the enclosing view has none itself. -/
theorem merged_eq {a : List Nat} {s : Slot} (hs : s.family ≠ .projection) {k j : Component}
    (hk : t.componentAt? s (a ++ [i]) = some k) (hj : u.componentAt? s a = some j) :
    k.merged = j.merged := by
  cases a with
  | nil =>
    have hroot : t.componentAt? s [] = none := hapart s hs
    have hiff := ht.merged_iff hk
    rw [hroot] at hiff
    rw [hu.live_root hj]
    exact Bool.eq_false_iff.2 fun hmerged => Bool.false_ne_true (hiff.1 hmerged)
  | cons n a =>
    obtain ⟨m, hm, -⟩ := componentAt?_eq_some.1 hj
    obtain ⟨q, hq, -, -⟩ := locate?_parent hm
    have hk : t.componentAt? s (n :: (a ++ [i])) = some k := hk
    rw [Bool.eq_iff_iff, ht.merged_iff hk, hu.merged_iff hj, h.isSome_componentAt? ht hu hq hs]

/-- Scales and guides end at the same node in both trees. -/
theorem endOf?_eq {a : List Nat} {s : Slot} (hs : s.family ≠ .projection) {j : Component}
    (hj : u.componentAt? s a = some j) :
    t.endOf? s (a ++ [i]) = (u.endOf? s a).map (· ++ [i]) := by
  induction a generalizing j with
  | nil =>
    obtain ⟨m, hm, -⟩ := componentAt?_eq_some.1 hj
    have hsome := h.isSome_componentAt? ht hu hm hs
    rw [hj] at hsome
    obtain ⟨k, hk⟩ := Option.isSome_iff_exists.1 hsome
    have hlive := hu.live_root hj
    rw [endOf?_of_live hj hlive,
      endOf?_of_live hk ((h.merged_eq ht hu hapart hs hk hj).trans hlive)]
    rfl
  | cons n a ih =>
    obtain ⟨m, hm, -⟩ := componentAt?_eq_some.1 hj
    have hsome := h.isSome_componentAt? ht hu hm hs
    rw [hj] at hsome
    obtain ⟨k, hk⟩ := Option.isSome_iff_exists.1 hsome
    have hmerged := h.merged_eq ht hu hapart hs hk hj
    cases hjm : j.merged with
    | false =>
      rw [endOf?_of_live hj hjm, endOf?_of_live hk (hmerged.trans hjm)]
      rfl
    | true =>
      obtain ⟨p, hp⟩ := Option.isSome_iff_exists.1 ((hu.merged_iff hj).1 hjm)
      rw [endOf?_of_merged hj hjm, ← ih hp]
      exact endOf?_of_merged (i := n) hk (hmerged.trans hjm)

variable (htplaced : t.Everywhere fun w => PlacedNames (w.map View.name))
  (huplaced : u.Everywhere fun w => PlacedNames (w.map View.name))

include htplaced huplaced

/-- A scale is looked up to the same one in both trees, whose name is moved. -/
theorem lookup_eq {a : List Nat} {l m : Located View} (hl : t.locate? (a ++ [i]) = some l)
    (hm : u.locate? a = some m) {c : Option Channel} {k j : Component}
    (hk : l.tree.label.components.get? ⟨.scale, c⟩ = some k)
    (hj : m.tree.label.components.get? ⟨.scale, c⟩ = some j) :
    seenFrom l .scale k.name = outer ++ "_" ++ seenFrom m .scale j.name := by
  have hs : (⟨.scale, c⟩ : Slot).family ≠ .projection := nofun
  obtain ⟨b, k', hb, hk', -, hkname⟩ := ht.lookup_end htplaced (s := ⟨.scale, c⟩) rfl _ l k hl hk
  obtain ⟨b', j', hb', hj', -, hjname⟩ := hu.lookup_end huplaced (s := ⟨.scale, c⟩) rfl a m j hm hj
  have hend := h.endOf?_eq ht hu hapart hs (componentAt?_eq_some.2 ⟨m, hm, hj⟩)
  rw [hb, hb', Option.map_some, Option.some.injEq] at hend
  subst hend
  obtain ⟨p, hp, hkp⟩ := componentAt?_eq_some.1 hk'
  obtain ⟨q, hq, hjq⟩ := componentAt?_eq_some.1 hj'
  rw [hkname, hjname, (ht.settledAt hp).name_eq hkp, (hu.settledAt hq).name_eq hjq,
    h.componentName_eq hp hq (s := ⟨.scale, c⟩) ((hu.settledAt hq).mem_sharingOrder hjq)]

end Encloses

end ViewTree

end ChartLowering
