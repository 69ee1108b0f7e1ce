import ChartLowering.Proofs.Sharing.Resolved
import ChartLowering.Proofs.Text.Qualified

/-
  Views that are named by their places.

  If no view of a specification has a name of its own, every view is named by its parent's name and
  its position, and so by the name of any view above it and the positions in between
  (`name_below`). Positions tell siblings apart whatever follows them, so no part of one view has the
  name of another view's part (`partName_ne`). Resolving a tree gives no view another name
  (`map_name_resolved`).
-/

namespace ChartLowering

namespace ViewSpec

mutual

/-- What the views of a specification have in common, every view before its children. -/
def bases : ViewSpec → List ViewBase
  | .unit base _ => [base]
  | .layer base children _ => base :: basesAll children
  | .facet base _ child _ => base :: bases child
  | .concat base children _ _ => base :: basesAll children

def basesAll : List ViewSpec → List ViewBase
  | [] => []
  | v :: rest => bases v ++ basesAll rest

end

/-- No view has a name of its own; an empty name is none. -/
def Unnamed (v : ViewSpec) : Prop := ∀ b ∈ v.bases, b.name.getD "" = ""

instance (v : ViewSpec) : Decidable v.Unnamed := inferInstanceAs (Decidable (∀ b ∈ v.bases, _))

theorem base_mem_bases (v : ViewSpec) : v.base ∈ v.bases := by
  cases v <;> rw [bases] <;> exact List.mem_cons_self

end ViewSpec

namespace ViewTree

open View

variable {config : Config} {settings : Settings} {above : List View}

/-! ## Building names -/

/-- A text that a position can be. -/
def IsPosition (position : String) : Prop := Text.IsPart position ∧ position ≠ ""

/-- Whether a name consists of another one and a position below it. -/
def IsPlaced (outer name : String) : Prop :=
  ∃ position, IsPosition position ∧ name = Text.join outer position

/-- The children of a node are named by their places. -/
def PlacedNames (t : Tree String) : Prop := ∀ u ∈ t.children, IsPlaced t.label u.label

/-- Whether the first `n` positions differ, even where more of a name follows them. -/
def Distinguishes (position : Nat → String) (n : Nat) : Prop :=
  ∀ i j, i < n → j < n → ∀ r s : List Char,
    (position i).toList ++ '_' :: r = (position j).toList ++ '_' :: s → i = j

/-- How a view calls the views below it: layers and the views of a concatenation by their numbers,
the one view of a facet by a word. -/
inductive Naming : (Nat → String) → Nat → Prop where
  | layers (n : Nat) : Naming layerPosition n
  | concat (n : Nat) : Naming concatPosition n
  | facet : Naming (fun _ => "child") 1

/-- The children of a node are named by positions, of which one view knows only one kind. -/
def NumberedNames (t : Tree String) : Prop :=
  ∃ position, Naming position t.children.length ∧
    ∀ i u, t.children[i]? = some u → u.label = Text.join t.label (position i)

theorem isPosition_numbered {s : String} (hs : IsPosition s) (i : Nat) :
    IsPosition (s ++ toString i) :=
  ⟨Text.isPart_append_toString hs.1 hs.2 i, Text.append_ne_empty (Or.inl hs.2)⟩

theorem isPosition_layer (i : Nat) : IsPosition (layerPosition i) :=
  isPosition_numbered ⟨by decide +kernel, by decide⟩ i

theorem isPosition_concat (i : Nat) : IsPosition (concatPosition i) :=
  isPosition_numbered ⟨by decide +kernel, by decide⟩ i

theorem isPosition_child : IsPosition "child" := ⟨by decide +kernel, by decide⟩

theorem Naming.isPosition {position : Nat → String} {n : Nat} (h : Naming position n) (i : Nat) :
    IsPosition (position i) := by
  cases h with
  | layers => exact isPosition_layer i
  | concat => exact isPosition_concat i
  | facet => exact isPosition_child

theorem distinguishes_numbered (s : String) (n : Nat) :
    Distinguishes (fun i => s ++ toString i) n :=
  fun _ _ _ _ _ _ h => Text.numbered_eq_of_append_eq h

/-- Positions tell siblings apart. -/
theorem Naming.distinguishes {position : Nat → String} {n : Nat} (h : Naming position n) :
    Distinguishes position n := by
  cases h with
  | layers => exact distinguishes_numbered "layer_" n
  | concat => exact distinguishes_numbered "concat_" n
  | facet =>
    -- there is but one view
    intro i j hi hj _ _ _
    omega

theorem NumberedNames.placed {t : Tree String} (h : NumberedNames t) : PlacedNames t := by
  obtain ⟨position, hnaming, hname⟩ := h
  intro u hu
  obtain ⟨i, hi⟩ := List.mem_iff_getElem?.1 hu
  exact ⟨position i, hnaming.isPosition i, hname i u hi⟩

theorem childName_unnamed (parent position : String) {own : Option String}
    (h : own.getD "" = "") : childName parent position own = Text.join parent position := by
  cases own with
  | none => rfl
  | some name =>
    obtain rfl : name = "" := h
    rfl

theorem name_viewOf (name : String) (form : ViewForm) (base : ViewBase)
    (inherited : Option DataSpec) : (viewOf name form base inherited).name = name := by
  unfold viewOf
  simp only
  split <;> rfl

theorem label_map_build (name : String) (inherited : Option DataSpec) (spec : ViewSpec) :
    ((build name inherited spec).map View.name).label = name := by
  rw [Tree.label_map]
  cases spec <;> rw [build, Tree.label, name_viewOf]

mutual

theorem numbered_build (name : String) (inherited : Option DataSpec) :
    ∀ spec : ViewSpec, spec.Unnamed →
      ((build name inherited spec).map View.name).Everywhere NumberedNames
  | .unit base u, _ => by
    rw [build, Tree.map_node]
    refine .node ⟨layerPosition, .layers _, ?_⟩ fun t ht => absurd ht List.not_mem_nil
    intro i t ht
    cases ht
  | .layer base children r, h => by
    rw [build, Tree.map_node, name_viewOf]
    have hkids := numbered_buildAll name layerPosition
      (viewOf name (.layer r) base inherited).data 0 children
      fun b hb => h b (by rw [ViewSpec.bases]; exact List.mem_cons_of_mem _ hb)
    refine .node ⟨layerPosition, .layers _, ?_⟩ hkids.2
    intro i t ht
    rw [hkids.1 i t ht, Nat.zero_add]
    rfl
  | .facet base mapping child r, h => by
    have hchild : child.Unnamed := fun b hb =>
      h b (by rw [ViewSpec.bases]; exact List.mem_cons_of_mem _ hb)
    have hname := childName_unnamed name "child" (hchild _ child.base_mem_bases)
    rw [build, Tree.map_node, name_viewOf, hname, List.map_singleton]
    refine .node ⟨fun _ => "child", .facet, ?_⟩ ?_
    · intro i t ht
      rw [List.mem_singleton.1 (List.mem_of_getElem? ht), label_map_build]
      rfl
    · intro t ht
      rw [List.mem_singleton.1 ht]
      exact numbered_build _ _ child hchild
  | .concat base children direction r, h => by
    rw [build, Tree.map_node, name_viewOf]
    have hkids := numbered_buildAll name concatPosition
      (viewOf name (.concat r) base inherited).data 0 children
      fun b hb => h b (by rw [ViewSpec.bases]; exact List.mem_cons_of_mem _ hb)
    refine .node ⟨concatPosition, .concat _, ?_⟩ hkids.2
    intro i t ht
    rw [hkids.1 i t ht, Nat.zero_add]
    rfl

theorem numbered_buildAll (parent : String) (position : Nat → String)
    (inherited : Option DataSpec) (i : Nat) :
    ∀ specs : List ViewSpec, (∀ b ∈ ViewSpec.basesAll specs, b.name.getD "" = "") →
      (∀ j t, ((buildAll parent position inherited i specs).map (Tree.map View.name))[j]? = some t →
        t.label = Text.join parent (position (i + j))) ∧
      ∀ t ∈ (buildAll parent position inherited i specs).map (Tree.map View.name),
        t.Everywhere NumberedNames
  | [], _ => by
    rw [buildAll]
    exact ⟨fun j t ht => (by cases ht), fun t ht => absurd ht List.not_mem_nil⟩
  | child :: rest, h => by
    rw [ViewSpec.basesAll, List.forall_mem_append] at h
    have hname := childName_unnamed parent (position i) (h.1 _ child.base_mem_bases)
    obtain ⟨hlabels, hall⟩ := numbered_buildAll parent position inherited (i + 1) rest h.2
    rw [buildAll, List.map_cons, List.forall_mem_cons, hname]
    refine ⟨?_, numbered_build _ inherited child h.1, hall⟩
    intro j t ht
    cases j with
    | zero =>
      obtain rfl := Option.some.inj ht
      rw [label_map_build]
      rfl
    | succ j =>
      rw [hlabels j t ht, show i + 1 + j = i + (j + 1) by omega]

end

/-! ## Keeping names -/

section Keeping

variable {β : Type} {f : View → β}
  (hsignals : ∀ (v : View) signals, f { v with scope := { v.scope with signals := signals } } = f v)

include hsignals

theorem map_layoutBelow (parent : Option View) (t : ViewTree) :
    (layoutBelow parent t).map f = t.map f := by
  induction t using Tree.induction generalizing parent with
  | step v kids ih =>
    obtain ⟨signals, hlabel⟩ := label_layoutBelow parent v kids
    have hkids := children_layoutBelow parent v kids
    generalize layoutBelow parent (.node v kids) = r at hlabel hkids
    obtain ⟨w, rkids⟩ := r
    obtain rfl : w = { v with scope := { v.scope with signals := signals } } := hlabel
    obtain rfl : rkids = kids.map (layoutBelow (some v)) := hkids
    rw [Tree.map_node, Tree.map_node, List.map_map, hsignals]
    congr 1
    exact List.map_congr_left fun t ht => ih t ht (some v)

/-- Resolving a specification changes nothing of its views but the scopes and the components. -/
theorem map_resolved (hblank : ∀ v : View, f v.blank = f v) (settings : Settings) (t : TopLevelSpec) :
    (t.resolved settings).map f = (ofSpec t.view).map f := by
  have hf : ∀ u : ViewTree, u.map f = (u.map View.blank).map f := by
    intro u
    rw [Tree.map_map]
    congr 1
    funext v
    exact (hblank v).symm
  rw [hf, map_blank_resolved, ← hf]
  exact map_layoutBelow hsignals none (ofSpec t.view)

theorem map_labels_resolved (hblank : ∀ v : View, f v.blank = f v) (settings : Settings)
    (t : TopLevelSpec) : (t.resolved settings).labels.map f = (ofSpec t.view).labels.map f := by
  rw [← Tree.labels_map, map_resolved hsignals hblank, Tree.labels_map]

end Keeping

/-- Resolving gives no view another name. -/
theorem map_name_resolved (settings : Settings) (t : TopLevelSpec) :
    (t.resolved settings).map View.name = (ofSpec t.view).map View.name :=
  map_resolved (fun _ _ => rfl) (fun _ => rfl) settings t

theorem numbered_laidOut {t : TopLevelSpec} (h : t.view.Unnamed) :
    t.laidOut.Everywhere fun u => NumberedNames (u.map View.name) := by
  apply Tree.Everywhere.of_map
  unfold TopLevelSpec.laidOut layout
  rw [map_layoutBelow (fun _ _ => rfl)]
  exact numbered_build _ none t.view h

/-- In the resolved tree of a specification without names, positions tell siblings apart. -/
theorem numbered_resolved (settings : Settings) {t : TopLevelSpec} (h : t.view.Unnamed) :
    (t.resolved settings).Everywhere fun u => NumberedNames (u.map View.name) := by
  apply Tree.Everywhere.of_map
  rw [map_name_resolved]
  exact numbered_build _ none t.view h

/-- In the resolved tree of a specification without names, views are named by their places. -/
theorem placed_resolved (settings : Settings) {t : TopLevelSpec} (h : t.view.Unnamed) :
    (t.resolved settings).Everywhere fun u => PlacedNames (u.map View.name) :=
  (numbered_resolved settings h).imp fun _ => NumberedNames.placed

/-! ## Names from further above -/

/-- Where views are named by their places, they are so below any view above them. -/
theorem name_below {t : ViewTree} (h : t.Everywhere fun u => PlacedNames (u.map View.name))
    {a c : List Nat} {p l : Located View} (hp : t.locate? a = some p)
    (hl : t.locate? (c ++ a) = some l) (hc : c ≠ []) :
    IsPlaced p.tree.label.name l.tree.label.name := by
  induction c generalizing l with
  | nil => exact absurd rfl hc
  | cons i c ih =>
    obtain ⟨q, u, hq, hu, rfl⟩ := Tree.locate?_cons.1 hl
    have hplaced := h.of_mem_walk (Tree.mem_walk_of_locate? hq) (u.map View.name) (by
      rw [Tree.children_map]
      exact List.mem_map_of_mem (List.mem_of_getElem? hu))
    rw [Tree.label_map, Tree.label_map] at hplaced
    obtain ⟨position, hposition, hname⟩ := hplaced
    by_cases hcnil : c = []
    · subst hcnil
      obtain rfl : q = p := Option.some.inj (hq.symm.trans hp)
      exact ⟨position, hposition, hname⟩
    · obtain ⟨w, hw, hqname⟩ := ih hq hcnil
      refine ⟨Text.join w position, ⟨Text.isPart_join hw.1 hposition.1,
        Text.join_ne_empty w hposition.2⟩, ?_⟩
      show u.label.name = _
      rw [hname, hqname, Text.join_assoc _ hw.2]

/-! ## Names of different views -/

/-- Two addresses are one above the other, or branch off from a third one. -/
theorem eq_or_above_or_branch (a b : List Nat) :
    a = b ∨ (∃ c i, b = c ++ i :: a) ∨ (∃ c i, a = c ++ i :: b) ∨
      ∃ p i j c d, i ≠ j ∧ a = c ++ i :: p ∧ b = d ++ j :: p := by
  -- read from the root, the addresses agree up to some point
  suffices h : ∀ x y : List Nat, x = y ∨ (∃ c i, y = x ++ i :: c) ∨ (∃ c i, x = y ++ i :: c) ∨
      ∃ p i j c d, i ≠ j ∧ x = p ++ i :: c ∧ y = p ++ j :: d by
    rcases h a.reverse b.reverse with heq | ⟨c, i, hb⟩ | ⟨c, i, ha⟩ | ⟨p, i, j, c, d, hij, ha, hb⟩
    · exact Or.inl (List.reverse_injective heq)
    · refine Or.inr (Or.inl ⟨c.reverse, i, ?_⟩)
      rw [← List.reverse_reverse b, hb]
      simp
    · refine Or.inr (Or.inr (Or.inl ⟨c.reverse, i, ?_⟩))
      rw [← List.reverse_reverse a, ha]
      simp
    · refine Or.inr (Or.inr (Or.inr ⟨p.reverse, i, j, c.reverse, d.reverse, hij, ?_, ?_⟩))
      · rw [← List.reverse_reverse a, ha]
        simp
      · rw [← List.reverse_reverse b, hb]
        simp
  intro x
  induction x with
  | nil =>
    intro y
    cases y with
    | nil => exact Or.inl rfl
    | cons j d => exact Or.inr (Or.inl ⟨d, j, rfl⟩)
  | cons i c ih =>
    intro y
    cases y with
    | nil => exact Or.inr (Or.inr (Or.inl ⟨c, i, rfl⟩))
    | cons j d =>
      by_cases hij : i = j
      · subst hij
        rcases ih d with rfl | ⟨e, k, rfl⟩ | ⟨e, k, rfl⟩ | ⟨p, k, m, e, f, hkm, rfl, rfl⟩
        · exact Or.inl rfl
        · exact Or.inr (Or.inl ⟨e, k, rfl⟩)
        · exact Or.inr (Or.inr (Or.inl ⟨e, k, rfl⟩))
        · exact Or.inr (Or.inr (Or.inr ⟨i :: p, k, m, e, f, hkm, rfl, rfl⟩))
      · exact Or.inr (Or.inr (Or.inr ⟨[], i, j, c, d, hij, rfl, rfl⟩))

/-- What a name goes on with below a view: the opening of a position with an underscore behind it. -/
def positionStems : List String := ["layer_", "concat_", "child_"]

/-- A part that is not also a part of a view further below: no position opens it. -/
def IsOwnPart (part : String) : Prop :=
  Text.IsPart part ∧ ∀ stem ∈ positionStems, ¬ stem.toList <+: part.toList

instance (part : String) : Decidable (IsOwnPart part) := inferInstanceAs (Decidable (_ ∧ _))

/-- A position with more of a name behind it opens like one. -/
theorem Naming.opens {position : Nat → String} {n : Nat} (h : Naming position n) (i : Nat)
    (rest : String) : ∃ stem ∈ positionStems, stem.toList <+: (Text.join (position i) rest).toList := by
  rw [Text.join_named (h.isPosition i).2]
  cases h with
  | layers =>
    refine ⟨"layer_", by decide, ?_⟩
    rw [layerPosition, String.append_assoc, String.append_assoc, String.toList_append]
    exact List.prefix_append _ _
  | concat =>
    refine ⟨"concat_", by decide, ?_⟩
    rw [concatPosition, String.append_assoc, String.append_assoc, String.toList_append]
    exact List.prefix_append _ _
  | facet =>
    refine ⟨"child_", by decide, ?_⟩
    rw [String.toList_append]
    exact List.prefix_append _ _

section Distinct

variable {t : ViewTree} (h : t.Everywhere fun u => NumberedNames (u.map View.name))

include h

/-- A part of a view is a part of any view above it, which opens with the position of the child on
the way. -/
theorem exists_partName_above {a c : List Nat} {i : Nat} {p l : Located View}
    (hp : t.locate? a = some p) (hl : t.locate? (c ++ i :: a) = some l) {position : Nat → String}
    (hposition : ∀ i, IsPosition (position i))
    (hname : ∀ i u, (p.tree.map View.name).children[i]? = some u →
      u.label = Text.join p.tree.label.name (position i)) {part : String} (hpart : Text.IsPart part) :
    ∃ rest, Text.IsPart (Text.join (position i) rest) ∧
      l.tree.label.partName part = p.tree.label.partName (Text.join (position i) rest) := by
  have hplaced := h.imp fun _ => NumberedNames.placed
  obtain ⟨q, hq⟩ := Tree.exists_locate?_of_append hl
  have hqname : q.tree.label.name = Text.join p.tree.label.name (position i) := by
    obtain ⟨p', u, hp', hu, rfl⟩ := Tree.locate?_cons.1 hq
    obtain rfl := Option.some.inj (hp.symm.trans hp')
    rw [← hname i (u.map View.name) (by rw [Tree.children_map, List.getElem?_map, hu]; rfl),
      Tree.label_map]
    rfl
  have hown : ∀ r, q.tree.label.partName r = p.tree.label.partName (Text.join (position i) r) := by
    intro r
    unfold partName
    rw [hqname, Text.qualified_join _ (hposition i).2]
  by_cases hc : c = []
  · subst hc
    obtain rfl := Option.some.inj (hq.symm.trans hl)
    exact ⟨part, Text.isPart_join (hposition i).1 hpart, hown part⟩
  · obtain ⟨w, hw, hlname⟩ := name_below hplaced hq hl hc
    refine ⟨Text.join w part, Text.isPart_join (hposition i).1 (Text.isPart_join hw.1 hpart), ?_⟩
    rw [← hown]
    unfold partName
    rw [hlname, Text.qualified_join _ hw.2]

/-- A part of one view has another name than one of a view below it. -/
theorem partName_ne_of_above {a c : List Nat} {i : Nat} {l m : Located View}
    (hl : t.locate? a = some l) (hm : t.locate? (c ++ i :: a) = some m) {p q : String}
    (hp : IsOwnPart p) (hq : Text.IsPart q) : l.tree.label.partName p ≠ m.tree.label.partName q := by
  obtain ⟨position, hnaming, hname⟩ := h.of_mem_walk (Tree.mem_walk_of_locate? hl)
  obtain ⟨rest, hrest, heq⟩ := exists_partName_above h hl hm hnaming.isPosition
    (fun j u hu => by rw [hname j u hu, Tree.label_map]) hq
  intro hpq
  have hpart : p = Text.join (position i) rest :=
    Text.qualified_injective hp.1 hrest (hpq.trans heq)
  obtain ⟨stem, hstem, hopens⟩ := hnaming.opens i rest
  rw [← hpart] at hopens
  exact hp.2 stem hstem hopens

/-- Parts of two views have different names. -/
theorem partName_ne {a b : List Nat} {l m : Located View} (hl : t.locate? a = some l)
    (hm : t.locate? b = some m) (hab : a ≠ b) {p q : String} (hp : IsOwnPart p)
    (hq : IsOwnPart q) : l.tree.label.partName p ≠ m.tree.label.partName q := by
  rcases eq_or_above_or_branch a b with rfl | ⟨c, i, rfl⟩ | ⟨c, i, rfl⟩ | ⟨x, i, j, c, d, hij, rfl, rfl⟩
  · exact absurd rfl hab
  · exact partName_ne_of_above h hl hm hp hq.1
  · exact (partName_ne_of_above h hm hl hq hp.1).symm
  · -- the two branches open with different positions below the view at which they part
    obtain ⟨y, hy⟩ := Tree.exists_locate?_of_append hl
    obtain ⟨o, u, ho, hu, rfl⟩ := Tree.locate?_cons.1 hy
    obtain ⟨z, hz⟩ := Tree.exists_locate?_of_append hm
    obtain ⟨o', w, ho', hw, rfl⟩ := Tree.locate?_cons.1 hz
    obtain rfl := Option.some.inj (ho.symm.trans ho')
    obtain ⟨position, hnaming, hname⟩ := h.of_mem_walk (Tree.mem_walk_of_locate? ho)
    have hposition := hnaming.isPosition
    have hnames : ∀ k v, (o.tree.map View.name).children[k]? = some v →
        v.label = Text.join o.tree.label.name (position k) := by
      intro k v hv
      rw [hname k v hv, Tree.label_map]
    obtain ⟨r, hr, hlr⟩ := exists_partName_above h ho hl hposition hnames hp.1
    obtain ⟨s, hs, hms⟩ := exists_partName_above h ho hm hposition hnames hq.1
    intro hpq
    have hjoin := Text.qualified_injective hr hs (hlr.symm.trans (hpq.trans hms))
    rw [Text.join_named (hposition i).2, Text.join_named (hposition j).2] at hjoin
    have hlists := congrArg String.toList hjoin
    simp only [String.toList_append, List.append_assoc] at hlists
    have hlength : (o.tree.map View.name).children.length = o.tree.children.length := by
      rw [Tree.children_map, List.length_map]
    have hi := (List.getElem?_eq_some_iff.1 hu).1
    have hj := (List.getElem?_eq_some_iff.1 hw).1
    exact hij (hnaming.distinguishes i j (hlength ▸ hi) (hlength ▸ hj) r.toList s.toList hlists)

end Distinct

end ViewTree

end ChartLowering
