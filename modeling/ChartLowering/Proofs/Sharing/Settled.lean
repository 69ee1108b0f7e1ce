import ChartLowering.Proofs.Sharing.Resolved

/-
  What a settled node says of its components.

  The components of a node are read off the node itself: for a unit they are what the unit makes
  (`Settled.get?_unit`), for a composite what its children share (`Settled.get?_composite`), and a
  child's components are merged in the slots that its parent fills (`Settled.get?_child`). From this
  follow the invariants of single components, upwards from the units: the explicit layer is what was
  specified, keys are distinct, a guide refers to the scale beside it, and a shared component keeps
  what each of the children's components says.
-/

namespace ChartLowering

/-- A component whose layers have distinct keys and whose explicit layer is what was specified. -/
structure Component.WellFormed (k : Component) : Prop where
  specified : k.specified = k.explicit
  explicit : k.explicit.keys.Nodup
  implicit : k.implicit.keys.Nodup

theorem Component.wellFormed_define {name : String} {explicit implicit : Fields}
    {size : Option (List Json)} {data : Option (List FitSource)} (he : explicit.keys.Nodup)
    (hi : implicit.keys.Nodup) : (Component.define name explicit implicit size data).WellFormed :=
  ⟨rfl, he, OrderedMap.nodup_keys_filterKeys hi _⟩

theorem Component.WellFormed.derive {k : Component} (h : k.WellFormed) (p : String) (x : Json) :
    (k.derive p x).WellFormed :=
  ⟨h.specified, h.explicit, OrderedMap.nodup_keys_insert h.implicit p x⟩

namespace View

/-- The explicit layer of a shared component is what was specified for the one that was kept. -/
theorem explicit_sharedComponent (v : View) (f : Family) (c : Option Channel) (r : Component)
    (present : List Component) :
    (v.sharedComponent f c r present).explicit = r.specified ∧
      (v.sharedComponent f c r present).specified = r.specified := by
  unfold sharedComponent
  simp only
  split <;> exact ⟨rfl, rfl⟩

theorem wellFormed_sharedComponent (v : View) (f : Family) (c : Option Channel) {r : Component}
    (h : r.WellFormed) (present : List Component) :
    (v.sharedComponent f c r present).WellFormed := by
  have hdefine : (Component.define (v.componentName f c) r.specified r.implicit r.size
      (gatherFit present)).WellFormed := by
    refine Component.wellFormed_define ?_ h.implicit
    rw [h.specified]
    exact h.explicit
  unfold sharedComponent
  simp only
  split
  · exact hdefine.derive _ _
  · exact hdefine

end View

namespace ViewTree

open View

variable {config : Config} {settings : Settings} {l : Located View}

/-! ## The components of one node -/

theorem isSome_get?_asMade (v : View) (s : Slot) :
    (v.asMade.components.get? s).isSome = (v.components.get? s).isSome := by
  rw [get?_asMade, Option.isSome_map]

/-- A component of a view and the same one as it was made. -/
theorem get?_asMade_of_some {v : View} {s : Slot} {k : Component}
    (h : v.components.get? s = some k) : v.asMade.components.get? s = some k.unmerged := by
  rw [get?_asMade, h]
  rfl

namespace Settled

theorem made (h : Settled config settings l) : l.tree.label.asMade.Made := by
  by_cases hform : ∃ u, l.tree.label.form = .unit u
  · obtain ⟨u, hu⟩ := hform
    rw [(h.unit u hu).2]
    exact made_resolveUnit rfl u
  · rw [(h.composite (not_exists.1 hform)).1]
    exact made_sharing rfl _

theorem nodup (h : Settled config settings l) : l.tree.label.components.keys.Nodup := by
  have hmade := h.made.nodup
  unfold asMade at hmade
  rwa [OrderedMap.keys_mapValues] at hmade

theorem mem_sharingOrder (h : Settled config settings l) {s : Slot} {k : Component}
    (hk : l.tree.label.components.get? s = some k) : s ∈ sharingOrder :=
  h.made.slots s (OrderedMap.mem_keys_of_get? (get?_asMade_of_some hk))

/-- The components of a view stand in the order in which they are shared. -/
theorem keys_sublist (h : Settled config settings l) :
    l.tree.label.components.keys.Sublist sharingOrder := by
  have hkeys : l.tree.label.components.keys = l.tree.label.asMade.components.keys :=
    (OrderedMap.keys_mapValues _ _).symm
  rw [hkeys]
  have hfill : ∀ make, (fill make sharingOrder l.tree.label.blank).components.keys.Sublist
      sharingOrder := by
    intro make
    have hnone : ∀ s ∈ sharingOrder, l.tree.label.blank.components.get? s = none := fun _ _ => rfl
    obtain ⟨used, hused, hkeys⟩ := keys_fill nodup_sharingOrder hnone
    rw [hkeys]
    exact hused
  by_cases hform : ∃ u, l.tree.label.form = .unit u
  · obtain ⟨u, hu⟩ := hform
    rw [(h.unit u hu).2, resolveUnit_eq_fill]
    exact hfill _
  · rw [(h.composite (not_exists.1 hform)).1]
    exact hfill _

/-- A component has the name of its slot in its view. -/
theorem name_eq (h : Settled config settings l) {s : Slot} {k : Component}
    (hk : l.tree.label.components.get? s = some k) :
    k.name = l.tree.label.componentName s.family s.channel := by
  show k.unmerged.name = l.tree.label.asMade.componentName s.family s.channel
  exact h.made.named s _ (get?_asMade_of_some hk)

/-- A unit has the components that it makes, guides from the scales beside them. -/
theorem get?_unit (h : Settled config settings l) {u : UnitSpec}
    (hform : l.tree.label.form = .unit u) {s : Slot} (hs : s ∈ sharingOrder) :
    l.tree.label.asMade.components.get? s =
      unitComponent? config settings l.above u l.tree.label.asMade s := by
  rw [(h.unit u hform).2, resolveUnit_eq_fill]
  exact get?_fill isLocal_unitComponent? nodup_sharingOrder scalesFirst_sharingOrder
    (fun s _ => rfl) s hs

/-- The explicit layer of a unit's component: the configured properties beneath the given ones. -/
theorem explicit_unit (h : Settled config settings l) {u : UnitSpec}
    (hform : l.tree.label.form = .unit u) {s : Slot} {k : Component}
    (hk : l.tree.label.components.get? s = some k) :
    k.explicit = explicitFields config s.family (u.given s) := by
  have hget := get?_asMade_of_some hk
  rw [h.get?_unit hform (h.mem_sharingOrder hk)] at hget
  obtain ⟨implicit, size, data, -, heq⟩ := unitComponent?_eq_define hget
  show k.unmerged.explicit = _
  rw [heq]
  rfl

/-- A composite has the components that its children share. -/
theorem get?_composite (h : Settled config settings l)
    (hform : ∀ u, l.tree.label.form ≠ .unit u) {s : Slot} (hs : s ∈ sharingOrder) :
    l.tree.label.asMade.components.get? s =
      sharedAt? (l.tree.children.map fun t => t.label.asMade) l.tree.label.asMade s := by
  rw [(h.composite hform).1]
  exact get?_fill (isLocal_sharedAt? _) nodup_sharingOrder scalesFirst_sharingOrder
    (fun s _ => rfl) s hs

/-- A view with children is composite. -/
theorem form_ne_unit (h : Settled config settings l) {t : ViewTree} (ht : t ∈ l.tree.children)
    (u : UnitSpec) : l.tree.label.form ≠ .unit u := by
  intro hu
  rw [(h.unit u hu).1] at ht
  exact List.not_mem_nil ht

theorem label_child (h : Settled config settings l) {t : ViewTree} (ht : t ∈ l.tree.children) :
    t.label = handOverAll l.tree.label.asMade sharingOrder t.label.asMade :=
  (h.composite (h.form_ne_unit ht)).2 t ht

/-- The components of a child are merged in the slots that its parent fills. -/
theorem get?_child (h : Settled config settings l) {t : ViewTree} (ht : t ∈ l.tree.children)
    (s : Slot) :
    t.label.components.get? s =
      if s ∈ sharingOrder ∧ (l.tree.label.components.get? s).isSome = true then
        (t.label.asMade.components.get? s).map Component.tombstone
      else t.label.asMade.components.get? s := by
  conv => lhs; rw [h.label_child ht]
  rw [get?_handOverAll, isSome_get?_asMade]

/-- What a composite's component is made of: the children's components, and the one of them that
their reduction has kept. -/
theorem sharedFrom (h : Settled config settings l) (hform : ∀ u, l.tree.label.form ≠ .unit u)
    {s : Slot} {k : Component} (hk : l.tree.label.components.get? s = some k) :
    l.tree.label.asMade.mayShare s.family s.channel = true ∧
      ∃ r, Component.reduce id s.family.properties
          (presentAt (l.tree.children.map fun t => t.label.asMade) s) = .kept r ∧
        k.unmerged = l.tree.label.asMade.sharedComponent s.family s.channel r
          (presentAt (l.tree.children.map fun t => t.label.asMade) s) := by
  have hget := get?_asMade_of_some hk
  rw [h.get?_composite hform (h.mem_sharingOrder hk)] at hget
  exact sharedAt?_eq_some hget

/-- What a component says explicitly is what was specified for it. -/
theorem specified_eq (h : Settled config settings l) {s : Slot} {k : Component}
    (hk : l.tree.label.components.get? s = some k) : k.specified = k.explicit := by
  show k.unmerged.specified = k.unmerged.explicit
  by_cases hform : ∃ u, l.tree.label.form = .unit u
  · obtain ⟨u, hu⟩ := hform
    have hget := get?_asMade_of_some hk
    rw [h.get?_unit hu (h.mem_sharingOrder hk)] at hget
    obtain ⟨implicit, size, data, -, heq⟩ := unitComponent?_eq_define hget
    rw [heq]
    rfl
  · obtain ⟨-, r, -, heq⟩ := h.sharedFrom (not_exists.1 hform) hk
    obtain ⟨hexplicit, hspecified⟩ := explicit_sharedComponent l.tree.label.asMade s.family s.channel
      r (presentAt (l.tree.children.map fun t => t.label.asMade) s)
    rw [heq, hexplicit, hspecified]

end Settled

/-- What is present in a slot of children as they were made. -/
theorem mem_presentAt {kids : List ViewTree} {s : Slot} {r : Component} :
    r ∈ presentAt (kids.map fun t => t.label.asMade) s ↔
      ∃ t ∈ kids, ∃ k, t.label.components.get? s = some k ∧ k.unmerged = r := by
  unfold presentAt
  rw [List.filterMap_map, List.mem_filterMap]
  constructor
  · rintro ⟨t, ht, hr⟩
    have hget := (liveComponent?_eq_some_iff.1 hr).1
    rw [get?_asMade, Option.map_eq_some_iff] at hget
    obtain ⟨k, hk, hkr⟩ := hget
    exact ⟨t, ht, k, hk, hkr⟩
  · rintro ⟨t, ht, k, hk, rfl⟩
    exact ⟨t, ht, liveComponent?_eq_some_iff.2 ⟨get?_asMade_of_some hk, rfl⟩⟩

/-! ## Invariants of single components -/

variable {t : ViewTree}

/-- Every component is well-formed if the configured properties have distinct keys. -/
theorem IsResolved.wellFormed (hresolved : IsResolved config settings t)
    (hconfig : ∀ f, (config.defaults f).keys.Nodup) :
    ∀ l ∈ t.walk [], ∀ s k, l.tree.label.components.get? s = some k → k.WellFormed := by
  apply Tree.forall_walk_up
  intro l hl ih s k hk
  have h := hresolved.settled l hl
  -- being merged makes no difference
  suffices hmade : k.unmerged.WellFormed from ⟨hmade.specified, hmade.explicit, hmade.implicit⟩
  by_cases hform : ∃ u, l.tree.label.form = .unit u
  · obtain ⟨u, hu⟩ := hform
    have hget := get?_asMade_of_some hk
    rw [h.get?_unit hu (h.mem_sharingOrder hk)] at hget
    obtain ⟨implicit, size, data, himplicit, heq⟩ := unitComponent?_eq_define hget
    rw [heq]
    exact Component.wellFormed_define (OrderedMap.nodup_keys_overlay (hconfig s.family) _) himplicit
  · obtain ⟨-, r, hr, heq⟩ := h.sharedFrom (not_exists.1 hform) hk
    obtain ⟨u, hu, j, hj, rfl⟩ := mem_presentAt.1 (Component.mem_of_reduce hr)
    have hj := ih u hu s j hj
    rw [heq]
    exact wellFormed_sharedComponent _ s.family s.channel
      ⟨hj.specified, hj.explicit, hj.implicit⟩ _

/-- What a component says explicitly, the component that it is merged into says too. -/
theorem IsResolved.keeps (hresolved : IsResolved config settings t) {l : Located View}
    (hl : l ∈ t.walk []) {u : ViewTree} (hu : u ∈ l.tree.children) {s : Slot} {k j : Component}
    (hk : l.tree.label.components.get? s = some k) (hj : u.label.components.get? s = some j) :
    Fields.Keeps s.family.properties k.explicit j.explicit := by
  have h := hresolved.settled l hl
  obtain ⟨-, r, hr, heq⟩ := h.sharedFrom (h.form_ne_unit hu) hk
  obtain ⟨w, hw, i, hi, rfl⟩ := mem_presentAt.1 (Component.mem_of_reduce hr)
  have hspecified := (hresolved.settled _ (Tree.child_mem_walk hl hw)).specified_eq hi
  have hexplicit : k.explicit = i.explicit := by
    show k.unmerged.explicit = i.explicit
    rw [heq, (explicit_sharedComponent _ _ _ _ _).1]
    exact hspecified
  rw [hexplicit]
  exact Component.keeps_of_reduce hr j.unmerged (mem_presentAt.2 ⟨u, hu, j, hj, rfl⟩)

/-- The scale that a guide refers to is the one beside it. -/
theorem Settled.guide_scale (h : Settled config settings l) {s : Slot} {k : Component}
    (hguide : s.family.isGuide = true) (hk : l.tree.label.components.get? s = some k) :
    ∃ scale, l.tree.label.components.get? ⟨.scale, s.channel⟩ = some scale ∧
      k.implicit.get? "scale" = some (.str scale.name) := by
  have hs := h.mem_sharingOrder hk
  have hget := get?_asMade_of_some hk
  suffices hmade : ∃ scale, l.tree.label.asMade.components.get? ⟨.scale, s.channel⟩ = some scale ∧
      k.unmerged.implicit.get? "scale" = some (.str scale.name) by
    obtain ⟨scale, hscale, himplicit⟩ := hmade
    rw [get?_asMade, Option.map_eq_some_iff] at hscale
    obtain ⟨scale', hscale', rfl⟩ := hscale
    exact ⟨scale', hscale', himplicit⟩
  by_cases hform : ∃ u, l.tree.label.form = .unit u
  · obtain ⟨u, hu⟩ := hform
    rw [h.get?_unit hu hs] at hget
    exact unitComponent?_guide hguide hget
  · rw [h.get?_composite (not_exists.1 hform) hs] at hget
    exact sharedAt?_guide hs hguide hget

end ViewTree

end ChartLowering
