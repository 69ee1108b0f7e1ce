import ChartLowering.Proofs.Sharing.HandOver
import ChartLowering.Proofs.Sharing.Reduction

/-
  The components of a composite view.

  What a composite makes for a slot depends on its children only through their live components of
  that slot, and sharing one slot leaves those of the others alone. So `resolveComposite` fills the
  slots of the view with what `sharedAt?` makes from the children as they came, and every child
  hands over the components of the slots that were filled (`resolveComposite_eq`).
-/

namespace ChartLowering

namespace View

/-- The live components that views have in a slot. -/
def presentAt (kids : List View) (s : Slot) : List Component :=
  kids.filterMap fun v => v.liveComponent? s.family s.channel

/-- The component that a composite view makes for a slot out of those of its children. -/
def sharedAt? (kids : List View) (v : View) (s : Slot) : Option Component :=
  if v.mayShare s.family s.channel then
    match Component.reduce id s.family.properties (presentAt kids s) with
    | .kept representative =>
      some (v.sharedComponent s.family s.channel representative (presentAt kids s))
    | _ => none
  else none

variable {kids : List View} {v : View} {s : Slot} {k : Component}

theorem shareSlot_of_none (h : sharedAt? kids v s = none) : shareSlot (v, kids) s = (v, kids) := by
  unfold sharedAt? presentAt at h
  unfold shareSlot
  simp only
  split
  · rename_i hmay
    rw [if_pos hmay] at h
    split
    · rename_i representative hreduce
      rw [hreduce] at h
      cases h
    · rfl
  · rfl

theorem shareSlot_of_some (h : sharedAt? kids v s = some k) :
    shareSlot (v, kids) s =
      (v.adopt s.family s.channel k, kids.map (handOver s.family s.channel k.name)) := by
  unfold sharedAt? presentAt at h
  unfold shareSlot
  simp only
  split
  · rename_i hmay
    rw [if_pos hmay] at h
    split
    · rename_i representative hreduce
      rw [hreduce] at h
      rw [← Option.some.inj h]
    · rename_i hreduce
      split at h
      · rename_i representative hr
        exact absurd hr (hreduce representative)
      · cases h
  · rename_i hmay
    rw [if_neg hmay] at h
    cases h

/-- A shared component is what the view makes of those present and of one of them, which a reduction
has kept. -/
theorem sharedAt?_eq_some (h : sharedAt? kids v s = some k) :
    v.mayShare s.family s.channel = true ∧
      ∃ representative, Component.reduce id s.family.properties (presentAt kids s) =
          .kept representative ∧
        k = v.sharedComponent s.family s.channel representative (presentAt kids s) := by
  unfold sharedAt? at h
  split at h
  · rename_i hmay
    split at h
    · rename_i representative hreduce
      exact ⟨hmay, representative, hreduce, (Option.some.inj h).symm⟩
    · cases h
  · cases h

theorem exists_channel_of_isGuide : ∀ s ∈ sharingOrder, s.family.isGuide = true →
    s.channel.isSome = true := by
  decide

/-- A view has one projection. -/
theorem slot_of_projection : ∀ s ∈ sharingOrder, s.family = .projection →
    s = ⟨.projection, none⟩ := by
  decide

/-- A composite shares a guide only beside a live scale of its own, to which it then refers. -/
theorem sharedAt?_guide (hs : s ∈ sharingOrder) (hguide : s.family.isGuide = true)
    (h : sharedAt? kids v s = some k) :
    ∃ scale, v.component? .scale s.channel = some scale ∧
      k.implicit.get? "scale" = some (.str scale.name) := by
  obtain ⟨hmay, r, -, rfl⟩ := sharedAt?_eq_some h
  obtain ⟨c, hc⟩ := Option.isSome_iff_exists.1 (exists_channel_of_isGuide s hs hguide)
  obtain ⟨f, c'⟩ := s
  obtain rfl : c' = some c := hc
  have hscale : (v.liveComponent? .scale (some c)).isSome = true := by
    unfold mayShare at hmay
    cases f with
    | axis => simpa using (Bool.and_eq_true_iff.1 hmay).2
    | legend => simpa using (Bool.and_eq_true_iff.1 hmay).2
    | scale => cases hguide
    | projection => cases hguide
  obtain ⟨scale, hscale⟩ := Option.isSome_iff_exists.1 hscale
  have hscale : v.component? .scale (some c) = some scale := (liveComponent?_eq_some_iff.1 hscale).1
  refine ⟨scale, hscale, ?_⟩
  unfold sharedComponent
  simp only [show f.isGuide = true from hguide, hscale]
  exact OrderedMap.get?_insert_self _ _ _

/-! ## What a shared component depends on -/

theorem mayShare_eq {v w : View} (h : v.blank = w.blank) {f : Family} {c : Option Channel}
    (hguide : f.isGuide = true → v.component? .scale c = w.component? .scale c) :
    v.mayShare f c = w.mayShare f c := by
  have hform := form_eq_of_blank_eq h
  have hmode (g : Family) (d : Channel) : v.resolveMode g d = w.resolveMode g d := by
    unfold resolveMode kind
    rw [hform]
  unfold mayShare
  simp only [hmode]
  cases f <;> cases c <;> first | rfl | simp only [liveComponent?, hguide rfl]

theorem isLocal_sharedAt? (kids : List View) : IsLocal (sharedAt? kids) := by
  intro v w s h hguide
  have hshared (r : Component) : v.sharedComponent s.family s.channel r (presentAt kids s) =
      w.sharedComponent s.family s.channel r (presentAt kids s) := by
    unfold sharedComponent
    rw [componentName_eq_of_blank_eq h]
    cases hg : s.family.isGuide with
    | true => rw [hguide hg]
    | false => rfl
  unfold sharedAt?
  rw [mayShare_eq h hguide]
  simp only [hshared]

theorem name_sharedComponent (v : View) (f : Family) (c : Option Channel) (r : Component)
    (present : List Component) :
    (v.sharedComponent f c r present).name = v.componentName f c ∧
      (v.sharedComponent f c r present).merged = false := by
  unfold sharedComponent
  simp only
  split <;> exact ⟨rfl, rfl⟩

theorem sharedAt?_proper (h : sharedAt? kids v s = some k) :
    k.merged = false ∧ k.name = v.componentName s.family s.channel := by
  obtain ⟨-, r, -, rfl⟩ := sharedAt?_eq_some h
  exact (name_sharedComponent v s.family s.channel r (presentAt kids s)).symm

/-! ## All slots -/

theorem fill_congr {make make' : View → Slot → Option Component} {slots : List Slot}
    (h : ∀ s ∈ slots, ∀ v, make v s = make' v s) (v : View) :
    fill make slots v = fill make' slots v := by
  induction slots generalizing v with
  | nil => rfl
  | cons s rest ih =>
    have ih := ih fun t ht => h t (List.mem_cons_of_mem s ht)
    unfold fill at ih ⊢
    rw [List.foldl_cons, List.foldl_cons, h s List.mem_cons_self, ih]

theorem presentAt_handOver (kids : List View) {s t : Slot} (h : s ≠ t) (name : String) :
    presentAt (kids.map (handOver t.family t.channel name)) s = presentAt kids s := by
  unfold presentAt
  rw [List.filterMap_map]
  congr 1
  funext v
  show liveComponent? (handOver t.family t.channel name v) s.family s.channel = _
  unfold liveComponent? component?
  rw [get?_handOver, if_neg h]

theorem handOverAll_cons (parent : View) (s : Slot) (slots : List Slot) (v : View) :
    handOverAll parent (s :: slots) v =
      handOverAll parent slots (match parent.components.get? s with
        | some k => handOver s.family s.channel k.name v
        | none => v) := rfl

/-- Sharing slot by slot, from children whose components of these slots are as they came. -/
theorem foldl_shareSlot {slots : List Slot} (hnodup : slots.Nodup) (kids : List View) {v : View}
    (hnone : ∀ s ∈ slots, v.components.get? s = none) :
    slots.foldl shareSlot (v, kids) =
      (fill (sharedAt? kids) slots v,
        kids.map (handOverAll (fill (sharedAt? kids) slots v) slots)) := by
  induction slots generalizing v kids with
  | nil =>
    show (v, kids) = (v, kids.map id)
    rw [List.map_id]
  | cons s rest ih =>
    obtain ⟨hs, hrest⟩ := List.nodup_cons.1 hnodup
    have hne : ∀ t ∈ rest, t ≠ s := fun t ht he => hs (he ▸ ht)
    rw [List.foldl_cons]
    cases hk : sharedAt? kids v s with
    | none =>
      have hfill : fill (sharedAt? kids) (s :: rest) v = fill (sharedAt? kids) rest v := by
        unfold fill
        rw [List.foldl_cons, hk]
      have hget : (fill (sharedAt? kids) rest v).components.get? s = none := by
        rw [get?_fill_of_notMem hs]
        exact hnone s List.mem_cons_self
      rw [shareSlot_of_none hk, ih hrest kids fun t ht => hnone t (List.mem_cons_of_mem s ht), hfill]
      congr 1
      refine List.map_congr_left fun kid _ => ?_
      rw [handOverAll_cons, hget]
    | some k =>
      have hfill : fill (sharedAt? kids) (s :: rest) v =
          fill (sharedAt? kids) rest (v.adopt s.family s.channel k) := by
        unfold fill
        rw [List.foldl_cons, hk]
      have hnone' : ∀ t ∈ rest, (v.adopt s.family s.channel k).components.get? t = none := by
        intro t ht
        rw [components_adopt, OrderedMap.get?_insert_of_ne _ _ (hne t ht)]
        exact hnone t (List.mem_cons_of_mem s ht)
      have hget : (fill (sharedAt? kids) rest (v.adopt s.family s.channel k)).components.get? s =
          some k := by
        rw [get?_fill_of_notMem hs, components_adopt]
        exact OrderedMap.get?_insert_self _ _ k
      -- what the remaining slots are made of is what it was
      have hsame : ∀ t ∈ rest, ∀ w, sharedAt? (kids.map (handOver s.family s.channel k.name)) w t =
          sharedAt? kids w t := by
        intro t ht w
        unfold sharedAt?
        rw [presentAt_handOver kids (hne t ht)]
      rw [shareSlot_of_some hk, ih hrest _ hnone', fill_congr hsame, hfill]
      congr 1
      rw [List.map_map]
      refine List.map_congr_left fun kid _ => ?_
      rw [handOverAll_cons, hget]
      rfl

/-- A composite fills its slots from its children as they came, and they hand over to the view as
it is filled. -/
theorem resolveComposite_eq (kids : List View) {v : View} (h : v.blank = v) :
    v.resolveComposite kids =
      (fill (sharedAt? kids) sharingOrder v,
        kids.map (handOverAll (fill (sharedAt? kids) sharingOrder v) sharingOrder)) := by
  refine foldl_shareSlot nodup_sharingOrder kids ?_
  intro s _
  rw [← h]
  rfl

end View

end ChartLowering
