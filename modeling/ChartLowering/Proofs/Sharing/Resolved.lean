import ChartLowering.Proofs.Sharing.Composite
import ChartLowering.Proofs.Sharing.Unit
import ChartLowering.Proofs.Tree.Address
import ChartLowering.Compile

/-
  The law of resolved trees.

  `Settled` says of one node of a resolved tree what its components are: those of a unit are what
  the bare unit makes, and those of a composite are what the bare view shares out of its children as
  they were made, who have handed over accordingly. Resolved trees are settled everywhere
  (`isResolved_resolved`), so facts about components follow from a look at one node and its children, without another walk
  through the resolution.
-/

namespace ChartLowering

namespace ViewTree

open View

variable {config : Config} {settings : Settings} {above above' : List View}

/-! ## Trees before resolution -/

/-- A tree whose root has no components yet, and no children if it is a unit. -/
structure Untouched (t : ViewTree) : Prop where
  blank : t.label.blank = t.label
  leaf : ∀ u, t.label.form = .unit u → t.children = []

theorem form_viewOf (name : String) (form : ViewForm) (base : ViewBase)
    (inherited : Option DataSpec) : (viewOf name form base inherited).form = form := by
  unfold viewOf
  simp only
  split <;> rfl

theorem data_viewOf (name : String) (form : ViewForm) (base : ViewBase)
    (inherited : Option DataSpec) :
    (viewOf name form base inherited).data = base.data.or inherited := by
  unfold viewOf
  simp only
  split <;> rfl

theorem ownData_viewOf (name : String) (form : ViewForm) (base : ViewBase)
    (inherited : Option DataSpec) : (viewOf name form base inherited).ownData = base.data := by
  unfold viewOf
  simp only
  split <;> rfl

theorem blank_seed_signal {v : View} (h : v.blank = v) (name : String) :
    (v.seed .signal name).blank = v.seed .signal name := by
  conv => rhs; rw [← h]
  rfl

theorem blank_viewOf (name : String) (form : ViewForm) (base : ViewBase)
    (inherited : Option DataSpec) :
    (viewOf name form base inherited).blank = viewOf name form base inherited := by
  unfold viewOf
  simp only
  split
  · refine List.foldlRecOn _ _ (motive := fun (v : View) => v.blank = v) rfl ?_
    intro v hv d _
    exact blank_seed_signal hv _
  · rfl

theorem untouched_viewOf {name : String} {form : ViewForm} {base : ViewBase}
    {inherited : Option DataSpec} {kids : List ViewTree} (h : ∀ u, form = .unit u → kids = []) :
    Untouched (.node (viewOf name form base inherited) kids) where
  blank := blank_viewOf name form base inherited
  leaf := fun u hu => h u ((form_viewOf name form base inherited).symm.trans hu)

mutual

/-- What holds of every view as it is built, over any children that it can have, holds everywhere in
the tree. -/
theorem everywhere_build {P : ViewTree → Prop}
    (h : ∀ name form base inherited kids, (∀ u, form = .unit u → kids = []) →
      P (.node (viewOf name form base inherited) kids))
    (name : String) (inherited : Option DataSpec) :
    ∀ spec : ViewSpec, (build name inherited spec).Everywhere P
  | .unit base u => by
    rw [build]
    exact .node (h _ _ _ _ _ fun _ _ => rfl) fun t ht => absurd ht List.not_mem_nil
  | .layer base children r => by
    rw [build]
    exact .node (h _ _ _ _ _ fun _ hu => nomatch hu)
      (everywhere_buildAll h name layerPosition _ 0 children)
  | .facet base mapping child r => by
    rw [build]
    refine .node (h _ _ _ _ _ fun _ hu => nomatch hu) ?_
    intro t ht
    rw [List.mem_singleton.1 ht]
    exact everywhere_build h _ _ child
  | .concat base children direction r => by
    rw [build]
    exact .node (h _ _ _ _ _ fun _ hu => nomatch hu)
      (everywhere_buildAll h name concatPosition _ 0 children)

theorem everywhere_buildAll {P : ViewTree → Prop}
    (h : ∀ name form base inherited kids, (∀ u, form = .unit u → kids = []) →
      P (.node (viewOf name form base inherited) kids))
    (parent : String) (position : Nat → String) (inherited : Option DataSpec) (i : Nat) :
    ∀ specs : List ViewSpec, ∀ t ∈ buildAll parent position inherited i specs, t.Everywhere P
  | [] => fun t ht => absurd ht List.not_mem_nil
  | child :: rest => by
    rw [buildAll]
    exact List.forall_mem_cons.2 ⟨everywhere_build h _ inherited child,
      everywhere_buildAll h parent position inherited (i + 1) rest⟩

end

theorem untouched_ofSpec (spec : ViewSpec) : (ofSpec spec).Everywhere Untouched :=
  everywhere_build (fun _ _ _ _ _ hleaf => untouched_viewOf hleaf) _ none spec

theorem layoutAll_eq_map (parent : View) (ts : List ViewTree) :
    layoutAll parent ts = ts.map (layoutBelow (some parent)) := by
  induction ts with
  | nil => rfl
  | cons t rest ih => rw [layoutAll, ih, List.map_cons]

/-- Sharing sizes renames signals only. -/
theorem layoutChild_eq (parent child : View) :
    ∃ signals, layoutChild parent child =
      { child with scope := { child.scope with signals := signals } } := by
  unfold layoutChild shareSize
  split
  · split
    · exact ⟨_, rfl⟩
    · exact ⟨child.scope.signals, rfl⟩
  · exact ⟨child.scope.signals, rfl⟩

theorem label_layoutBelow (parent : Option View) (v : View) (kids : List ViewTree) :
    ∃ signals, (layoutBelow parent (.node v kids)).label =
      { v with scope := { v.scope with signals := signals } } := by
  cases parent with
  | none => exact ⟨v.scope.signals, rfl⟩
  | some p => exact layoutChild_eq p v

theorem children_layoutBelow (parent : Option View) (v : View) (kids : List ViewTree) :
    (layoutBelow parent (.node v kids)).children = kids.map (layoutBelow (some v)) := by
  rw [layoutBelow, layoutAll_eq_map]
  rfl

theorem untouched_layoutBelow {t : ViewTree} (h : t.Everywhere Untouched) (parent : Option View) :
    (layoutBelow parent t).Everywhere Untouched := by
  induction t using Tree.induction generalizing parent with
  | step v kids ih =>
    obtain ⟨signals, hlabel⟩ := label_layoutBelow parent v kids
    refine .node ⟨?_, ?_⟩ ?_
    · have hblank : v.blank = v := h.here.blank
      rw [hlabel]
      conv => rhs; rw [← hblank]
      conv => lhs; rw [← hblank]
      rfl
    · intro u hu
      rw [hlabel] at hu
      have hkids : kids = [] := h.here.leaf u hu
      rw [children_layoutBelow, hkids]
      rfl
    · rw [children_layoutBelow]
      exact List.forall_mem_map.2 fun t ht => ih t ht (h.child t ht) (some v)

theorem untouched_laidOut (t : TopLevelSpec) : t.laidOut.Everywhere Untouched :=
  untouched_layoutBelow (untouched_ofSpec t.view) none

/-! ## One view -/

theorem resolveAll_eq_map (config : Config) (settings : Settings) (above : List View)
    (ts : List ViewTree) :
    resolveAll config settings above ts = ts.map (resolve config settings above) := by
  induction ts with
  | nil => rfl
  | cons t rest ih => rw [resolveAll, ih, List.map_cons]

theorem setLabels_map (f : View → View) (ts : List ViewTree) :
    setLabels ts ((ts.map Tree.label).map f) = ts.map fun t => t.setLabel (f t.label) := by
  induction ts with
  | nil => rfl
  | cons t rest ih => rw [List.map_cons, List.map_cons, setLabels, ih, List.map_cons]

/-- A composite view with the components shared out of its children. -/
def sharing (v : View) (kids : List View) : View := fill (sharedAt? kids) sharingOrder v

theorem resolve_unit {v : View} {kids : List ViewTree} {u : UnitSpec} (hform : v.form = .unit u)
    (hkids : kids = []) :
    resolve config settings above (.node v kids) =
      .node (v.resolveUnit config settings above u) [] := by
  rw [resolve, resolveNode, hform, hkids]
  rfl

/-- A composite over its resolved children, who hand over to it. -/
def shareAmong (v : View) (resolved : List ViewTree) : ViewTree :=
  .node (sharing v (resolved.map Tree.label)) (resolved.map fun t =>
    t.setLabel (handOverAll (sharing v (resolved.map Tree.label)) sharingOrder t.label))

theorem label_shareAmong (v : View) (resolved : List ViewTree) :
    (shareAmong v resolved).label = sharing v (resolved.map Tree.label) := by
  rw [shareAmong, Tree.label]

theorem resolve_composite {v : View} {kids : List ViewTree} (hform : ∀ u, v.form ≠ .unit u)
    (hblank : v.blank = v) :
    resolve config settings above (.node v kids) =
      shareAmong v (kids.map (resolve config settings (v :: above))) := by
  rw [resolve, resolveNode, resolveAll_eq_map]
  split
  · rename_i u hu
    exact absurd hu (hform u)
  · simp only [resolveComposite_eq _ hblank]
    rw [setLabels_map]
    rfl

theorem blank_resolveUnit (v : View) (u : UnitSpec) :
    (v.resolveUnit config settings above u).blank = v.blank := by
  rw [resolveUnit_eq_fill, blank_fill]

theorem blank_sharing (v : View) (kids : List View) : (sharing v kids).blank = v.blank :=
  blank_fill sharingOrder v

theorem made_fill_of_blank {make : View → Slot → Option Component}
    (hmake : ∀ v s k, make v s = some k →
      k.merged = false ∧ k.name = v.componentName s.family s.channel)
    {v : View} (hblank : v.blank = v) : (fill make sharingOrder v).Made := by
  rw [← hblank]
  exact made_fill hmake (fun s hs => hs) nodup_sharingOrder (made_blank v) fun s _ => rfl

theorem made_resolveUnit {v : View} (hblank : v.blank = v) (u : UnitSpec) :
    (v.resolveUnit config settings above u).Made := by
  rw [resolveUnit_eq_fill]
  refine made_fill_of_blank ?_ hblank
  intro v s k hk
  obtain ⟨implicit, size, data, -, rfl⟩ := unitComponent?_eq_define hk
  exact ⟨rfl, rfl⟩

theorem made_sharing {v : View} (hblank : v.blank = v) (kids : List View) :
    (sharing v kids).Made :=
  made_fill_of_blank (fun _ _ _ hk => sharedAt?_proper hk) hblank

theorem made_resolve {t : ViewTree} (h : Untouched t) :
    (resolve config settings above t).label.Made ∧
      (resolve config settings above t).label.blank = t.label := by
  obtain ⟨v, kids⟩ := t
  by_cases hform : ∃ u, v.form = .unit u
  · obtain ⟨u, hu⟩ := hform
    have hkids : kids = [] := h.leaf u hu
    rw [resolve_unit hu hkids]
    exact ⟨made_resolveUnit h.blank u, (blank_resolveUnit v u).trans h.blank⟩
  · rw [resolve_composite (not_exists.1 hform) h.blank, label_shareAmong]
    exact ⟨made_sharing h.blank _, (blank_sharing v _).trans h.blank⟩

/-! ## All views -/

/-- What the components of a node of a resolved tree are. -/
structure Settled (config : Config) (settings : Settings) (l : Located View) : Prop where
  unit : ∀ u, l.tree.label.form = .unit u → l.tree.children = [] ∧
    l.tree.label.asMade = l.tree.label.blank.resolveUnit config settings l.above u
  composite : (∀ u, l.tree.label.form ≠ .unit u) →
    l.tree.label.asMade =
        sharing l.tree.label.blank (l.tree.children.map fun t => t.label.asMade) ∧
      ∀ t ∈ l.tree.children,
        t.label = handOverAll l.tree.label.asMade sharingOrder t.label.asMade

/-- A resolved unit is settled, whatever it has handed over. -/
theorem settled_resolve_unit {v v' : View} {u : UnitSpec} (hu : v.form = .unit u)
    (hbare : v'.blank = v)
    (hv' : v'.asMade = (resolve config settings above (.node v [])).label)
    (habove : signalScopes above = signalScopes above') :
    ∀ l ∈ ((resolve config settings above (.node v [])).setLabel v').walk above',
      Settled config settings l := by
  rw [resolve_unit hu rfl] at hv' ⊢
  rw [Tree.label] at hv'
  intro l hl
  obtain rfl : l = ⟨.node v' [], above'⟩ := by
    rcases Tree.mem_walk.1 hl with rfl | ⟨t, ht, -⟩
    · rfl
    · exact absurd ht List.not_mem_nil
  have hform' : v'.form = .unit u := by
    show v'.blank.form = .unit u
    rw [hbare, hu]
  refine ⟨?_, fun hc => absurd hform' (hc u)⟩
  intro w hw
  obtain rfl : u = w := ViewForm.unit.inj (hform'.symm.trans hw)
  refine ⟨rfl, ?_⟩
  show v'.asMade = v'.blank.resolveUnit config settings above' u
  rw [hv', hbare, resolveUnit_eq_fill, resolveUnit_eq_fill, unitComponent?_of_signals_eq habove]

/-- A resolved tree is settled wherever it hangs, whatever its root has handed over, as long as the
views above have the same signal names. -/
theorem settled_resolve {t : ViewTree} (h : t.Everywhere Untouched) {v' : View}
    (hv' : v'.asMade = (resolve config settings above t).label)
    (habove : signalScopes above = signalScopes above') :
    ∀ l ∈ ((resolve config settings above t).setLabel v').walk above',
      Settled config settings l := by
  induction t using Tree.induction generalizing above above' v' with
  | step v kids ih =>
    have hblank : v.blank = v := h.here.blank
    have hbare : v'.blank = v := by
      rw [← blank_asMade, hv']
      exact (made_resolve h.here).2
    by_cases hform : ∃ u, v.form = .unit u
    · obtain ⟨u, hu⟩ := hform
      obtain rfl : kids = [] := h.here.leaf u hu
      exact settled_resolve_unit hu hbare hv' habove
    · have hform := not_exists.1 hform
      rw [resolve_composite hform hblank] at hv' ⊢
      rw [label_shareAmong] at hv'
      generalize hresolved : kids.map (resolve config settings (v :: above)) = resolved at hv' ⊢
      have hmade : ∀ t ∈ resolved, t.label.Made := by
        rw [← hresolved, List.forall_mem_map]
        exact fun t ht => (made_resolve (h.child t ht).here).1
      have hasMade : ∀ t ∈ resolved, (handOverAll v'.asMade sharingOrder t.label).asMade = t.label := by
        intro t ht
        rw [asMade_handOverAll]
        exact (hmade t ht).asMade_eq
      have htree : (shareAmong v resolved).setLabel v' =
          .node v' (resolved.map fun t => t.setLabel (handOverAll v'.asMade sharingOrder t.label)) := by
        rw [hv']
        rfl
      rw [htree]
      intro l hl
      rcases Tree.mem_walk.1 hl with rfl | ⟨t, ht, hlt⟩
      · have hform' : ∀ u, v'.form ≠ .unit u := by
          intro u hu
          apply hform u
          rw [← hbare]
          exact hu
        refine ⟨fun u hu => absurd hu (hform' u), fun _ => ⟨?_, ?_⟩⟩
        · have hlabels : (resolved.map fun t => t.setLabel
              (handOverAll v'.asMade sharingOrder t.label)).map (fun t => t.label.asMade) =
              resolved.map Tree.label := by
            rw [List.map_map]
            exact List.map_congr_left hasMade
          show v'.asMade = sharing v'.blank (List.map _ (List.map _ resolved))
          rw [hlabels, hbare, hv']
        · show ∀ t ∈ List.map _ resolved, Tree.label t = handOverAll v'.asMade sharingOrder _
          rw [List.forall_mem_map]
          intro t ht
          show handOverAll v'.asMade sharingOrder t.label =
            handOverAll v'.asMade sharingOrder (handOverAll v'.asMade sharingOrder t.label).asMade
          rw [hasMade t ht]
      · obtain ⟨r, hr, rfl⟩ := List.mem_map.1 ht
        have hrAsMade := hasMade r hr
        rw [← hresolved] at hr
        obtain ⟨k, hk, rfl⟩ := List.mem_map.1 hr
        refine ih k hk (h.child k hk) hrAsMade ?_ l hlt
        show v.scope.signals :: signalScopes above = v'.scope.signals :: signalScopes above'
        rw [habove, signals_eq_of_blank_eq (hbare.trans hblank.symm)]

theorem map_setLabel {β : Type} {f : View → β} {t : ViewTree} {v : View} (h : f v = f t.label) :
    (t.setLabel v).map f = t.map f := by
  cases t with
  | node w kids => rw [Tree.setLabel, Tree.map_node, Tree.map_node, h]; rfl

theorem blank_handOverAll (parent : View) (slots : List Slot) (v : View) :
    (handOverAll parent slots v).blank = v.blank := by
  rw [← blank_asMade, asMade_handOverAll, blank_asMade]

/-- But for the components and their names, resolving changes nothing. -/
theorem map_blank_resolve {t : ViewTree} (h : t.Everywhere Untouched) :
    (resolve config settings above t).map View.blank = t.map View.blank := by
  induction t using Tree.induction generalizing above with
  | step v kids ih =>
    by_cases hform : ∃ u, v.form = .unit u
    · obtain ⟨u, hu⟩ := hform
      have hkids : kids = [] := h.here.leaf u hu
      rw [resolve_unit hu hkids, hkids, Tree.map_node, Tree.map_node, blank_resolveUnit]
    · rw [resolve_composite (not_exists.1 hform) h.here.blank, shareAmong, Tree.map_node,
        Tree.map_node, blank_sharing, List.map_map, List.map_map]
      congr 1
      refine List.map_congr_left fun t ht => ?_
      exact (map_setLabel (blank_handOverAll _ _ _)).trans (ih t ht (h.child t ht))

theorem map_blank_resolved (settings : Settings) (t : TopLevelSpec) :
    (t.resolved settings).map View.blank = t.laidOut.map View.blank :=
  map_blank_resolve (untouched_laidOut t)

/-- A tree with settled nodes, and a root whose components nobody has merged. -/
structure IsResolved (config : Config) (settings : Settings) (t : ViewTree) : Prop where
  settled : ∀ l ∈ t.walk [], Settled config settings l
  root : t.label.Made

/-- The trees that a resolution ends in are resolved. -/
theorem isResolved_resolved (settings : Settings) (t : TopLevelSpec) :
    IsResolved t.config settings (t.resolved settings) := by
  have huntouched := untouched_laidOut t
  have hmade : (resolve t.config settings [] t.laidOut).label.Made :=
    (made_resolve huntouched.here).1
  refine ⟨?_, hmade⟩
  have h : ∀ l ∈ Tree.walk [] ((resolve t.config settings [] t.laidOut).setLabel
      (resolve t.config settings [] t.laidOut).label), Settled t.config settings l :=
    settled_resolve huntouched hmade.asMade_eq rfl
  unfold TopLevelSpec.resolved
  generalize resolve t.config settings [] t.laidOut = r at h ⊢
  obtain ⟨v, kids⟩ := r
  exact h

end ViewTree

end ChartLowering
