import ChartLowering.Tree
import Mathlib.Data.List.Basic

/-
  Addresses of nodes.

  The address of a node lists positions among siblings: the node's own first, then its parent's, and
  so on; the root has the empty address, and the tail of an address is the address of the parent.
  `locate?` finds the node at an address. The located nodes are those that `walk` lists
  (`mem_walk_iff_locate?`), so a fact about all nodes can be shown upwards from the leaves
  (`forall_walk_up`), or downwards from the root (`forall_walk_down`).
-/

namespace ChartLowering

universe u

/-- A child of a located tree, which is then above it. -/
def Located.child {α : Type u} (l : Located α) (t : Tree α) : Located α :=
  ⟨t, l.tree.label :: l.above⟩

namespace Tree

variable {α : Type u}

mutual

/-- What holds of a tree if it holds of its children holds of every tree. -/
theorem induction {P : Tree α → Prop}
    (step : ∀ (a : α) (kids : List (Tree α)), (∀ t ∈ kids, P t) → P (.node a kids)) :
    ∀ t, P t
  | .node a kids => step a kids (inductionAll step kids)

theorem inductionAll {P : Tree α → Prop}
    (step : ∀ (a : α) (kids : List (Tree α)), (∀ t ∈ kids, P t) → P (.node a kids)) :
    ∀ ts : List (Tree α), ∀ t ∈ ts, P t
  | [] => fun _ h => absurd h List.not_mem_nil
  | u :: rest => List.forall_mem_cons.2 ⟨induction step u, inductionAll step rest⟩

end

/-! ## Walks -/

theorem mem_walkAll {above : List α} {l : Located α} {ts : List (Tree α)} :
    l ∈ walkAll above ts ↔ ∃ t ∈ ts, l ∈ t.walk above := by
  induction ts with
  | nil => simp [walkAll]
  | cons t rest ih => rw [walkAll, List.mem_append, ih]; simp

theorem mem_walk {above : List α} {l : Located α} {t : Tree α} :
    l ∈ t.walk above ↔ l = ⟨t, above⟩ ∨ ∃ u ∈ t.children, l ∈ u.walk (t.label :: above) := by
  cases t with
  | node a kids => rw [walk, List.mem_cons, mem_walkAll]; rfl

theorem self_mem_walk (above : List α) (t : Tree α) : ⟨t, above⟩ ∈ t.walk above :=
  mem_walk.2 (Or.inl rfl)

theorem walkAll_eq_flatMap (above : List α) (ts : List (Tree α)) :
    walkAll above ts = ts.flatMap (walk above) := by
  induction ts with
  | nil => rfl
  | cons t rest ih => rw [walkAll, ih, List.flatMap_cons]

theorem walk_node (above : List α) (a : α) (kids : List (Tree α)) :
    walk above (.node a kids) = ⟨.node a kids, above⟩ :: kids.flatMap (walk (a :: above)) := by
  rw [walk, walkAll_eq_flatMap]

/-- Where a tree hangs shows only in the labels above it. -/
theorem walk_append (t : Tree α) (above further : List α) :
    t.walk (above ++ further) = (t.walk above).map fun l => ⟨l.tree, l.above ++ further⟩ := by
  induction t using Tree.induction generalizing above with
  | step a kids ih =>
    rw [walk_node, walk_node, List.map_cons, List.map_flatMap]
    congr 1
    exact List.flatMap_congr fun k hk => ih k hk (a :: above)

/-- From a node of a tree the labels lead up to the root of that tree, and on from there. -/
theorem exists_between_of_mem_walk {t : Tree α} {above : List α} {l : Located α}
    (h : l ∈ t.walk above) :
    ∃ between, l.tree.label :: l.above = between ++ t.label :: above := by
  induction t using Tree.induction generalizing above with
  | step a kids ih =>
    rcases mem_walk.1 h with rfl | ⟨k, hk, hlk⟩
    · exact ⟨[], rfl⟩
    · obtain ⟨between, hbetween⟩ := ih k hk hlk
      exact ⟨between ++ [k.label], by rw [hbetween, List.append_assoc]; rfl⟩

theorem child_mem_walk {t : Tree α} {above : List α} {l : Located α} (hl : l ∈ t.walk above)
    {u : Tree α} (hu : u ∈ l.tree.children) : l.child u ∈ t.walk above := by
  induction t using Tree.induction generalizing above with
  | step a kids ih =>
    rcases mem_walk.1 hl with rfl | ⟨k, hk, hlk⟩
    · exact mem_walk.2 (Or.inr ⟨u, hu, self_mem_walk _ u⟩)
    · exact mem_walk.2 (Or.inr ⟨k, hk, ih k hk hlk⟩)

/-- The nodes of a located subtree are nodes of the tree. -/
theorem mem_walk_of_mem_walk {t : Tree α} {above : List α} {l m : Located α}
    (hl : l ∈ t.walk above) (hm : m ∈ l.tree.walk l.above) : m ∈ t.walk above := by
  induction t using Tree.induction generalizing above with
  | step a kids ih =>
    rcases mem_walk.1 hl with rfl | ⟨k, hk, hlk⟩
    · exact hm
    · exact mem_walk.2 (Or.inr ⟨k, hk, ih k hk hlk⟩)

/-- The labels of a located subtree are labels of the tree. -/
theorem labels_subset {t : Tree α} {l m : Located α} (hl : l ∈ t.walk [])
    (hm : m ∈ l.tree.walk []) : m.tree.label ∈ t.labels := by
  have hwalk : l.tree.walk l.above = (l.tree.walk []).map fun n => ⟨n.tree, n.above ++ l.above⟩ :=
    walk_append l.tree [] l.above
  have hmem : ⟨m.tree, m.above ++ l.above⟩ ∈ l.tree.walk l.above := by
    rw [hwalk]
    exact List.mem_map_of_mem hm
  exact List.mem_map.2 ⟨_, mem_walk_of_mem_walk hl hmem, rfl⟩

theorem labels_node (a : α) (kids : List (Tree α)) :
    (Tree.node a kids).labels = a :: kids.flatMap labels := by
  unfold labels
  rw [walk_node, List.map_cons, List.map_flatMap]
  congr 1
  refine List.flatMap_congr fun k _ => ?_
  rw [show [a] = [] ++ [a] from rfl, walk_append, List.map_map]
  rfl

/-- What holds of every node whose children it holds of holds of every node. -/
theorem forall_walk_up {P : Located α → Prop} (t : Tree α) (above : List α)
    (step : ∀ l ∈ t.walk above, (∀ u ∈ l.tree.children, P (l.child u)) → P l) :
    ∀ l ∈ t.walk above, P l := by
  induction t using Tree.induction generalizing above with
  | step a kids ih =>
    have below : ∀ k ∈ kids, ∀ l ∈ k.walk (a :: above), P l := by
      intro k hk
      refine ih k hk (a :: above) ?_
      intro l hl
      exact step l (mem_walk.2 (Or.inr ⟨k, hk, hl⟩))
    intro l hl
    rcases mem_walk.1 hl with rfl | ⟨k, hk, hlk⟩
    · exact step _ hl fun u hu => below u hu _ (self_mem_walk _ u)
    · exact below k hk l hlk

/-- Trees with a property that all subtrees have too. -/
inductive Everywhere (P : Tree α → Prop) : Tree α → Prop where
  | node {t : Tree α} (here : P t) (below : ∀ u ∈ t.children, Everywhere P u) : Everywhere P t

theorem Everywhere.here {P : Tree α → Prop} {t : Tree α} (h : t.Everywhere P) : P t := by
  cases h with
  | node here below => exact here

theorem Everywhere.child {P : Tree α → Prop} {t : Tree α} (h : t.Everywhere P) :
    ∀ u ∈ t.children, u.Everywhere P := by
  cases h with
  | node here below => exact below

theorem Everywhere.imp {P Q : Tree α → Prop} {t : Tree α} (h : t.Everywhere P)
    (hPQ : ∀ u, P u → Q u) : t.Everywhere Q := by
  induction h with
  | node here below ih => exact .node (hPQ _ here) ih

theorem Everywhere.of_mem_walk {P : Tree α → Prop} {t : Tree α} (h : t.Everywhere P)
    {above : List α} {l : Located α} (hl : l ∈ t.walk above) : P l.tree := by
  induction h generalizing above with
  | node here below ih =>
    rcases mem_walk.1 hl with rfl | ⟨u, hu, hlu⟩
    · exact here
    · exact ih u hu hlu

/-! ## Relabelling -/

universe v

variable {β : Type v}

mutual

/-- The tree with another label on every node. -/
def map (f : α → β) : Tree α → Tree β
  | .node a kids => .node (f a) (mapAll f kids)

def mapAll (f : α → β) : List (Tree α) → List (Tree β)
  | [] => []
  | t :: rest => map f t :: mapAll f rest

end

theorem mapAll_eq_map (f : α → β) (ts : List (Tree α)) : mapAll f ts = ts.map (map f) := by
  induction ts with
  | nil => rfl
  | cons t rest ih => rw [mapAll, ih, List.map_cons]

theorem map_node (f : α → β) (a : α) (kids : List (Tree α)) :
    map f (.node a kids) = .node (f a) (kids.map (map f)) := by
  rw [map, mapAll_eq_map]

@[simp] theorem label_map (f : α → β) (t : Tree α) : (t.map f).label = f t.label := by
  cases t with
  | node a kids => rfl

theorem children_map (f : α → β) (t : Tree α) : (t.map f).children = t.children.map (map f) := by
  cases t with
  | node a kids => rw [map_node]; rfl

theorem map_map {γ : Type v} (f : α → β) (g : β → γ) (t : Tree α) :
    (t.map f).map g = t.map (g ∘ f) := by
  induction t using Tree.induction with
  | step a kids ih =>
    rw [map_node, map_node, map_node, List.map_map]
    congr 1
    exact List.map_congr_left ih

/-- The nodes of a relabelled tree are the relabelled nodes. -/
theorem walk_map (f : α → β) (t : Tree α) (above : List α) :
    (t.map f).walk (above.map f) = (t.walk above).map fun l => ⟨l.tree.map f, l.above.map f⟩ := by
  induction t using Tree.induction generalizing above with
  | step a kids ih =>
    rw [map_node, walk_node, walk_node, List.map_cons, map_node, List.map_flatMap, List.flatMap_map]
    congr 1
    exact List.flatMap_congr fun k hk => ih k hk (a :: above)

theorem walk_map_nil (f : α → β) (t : Tree α) :
    (t.map f).walk [] = (t.walk []).map fun l => ⟨l.tree.map f, l.above.map f⟩ :=
  walk_map f t []

theorem labels_map (f : α → β) (t : Tree α) : (t.map f).labels = t.labels.map f := by
  induction t using Tree.induction with
  | step a kids ih =>
    rw [map_node, labels_node, labels_node, List.map_cons, List.map_flatMap, List.flatMap_map]
    congr 1
    exact List.flatMap_congr ih

theorem Everywhere.of_map {P : Tree β → Prop} {f : α → β} {t : Tree α}
    (h : (t.map f).Everywhere P) : t.Everywhere fun u => P (u.map f) := by
  induction t using Tree.induction with
  | step a kids ih =>
    refine .node h.here ?_
    intro u hu
    apply ih u hu
    apply h.child
    rw [children_map]
    exact List.mem_map_of_mem hu

/-! ## Addresses -/

/-- The node at an address. -/
def locate? (t : Tree α) : List Nat → Option (Located α)
  | [] => some ⟨t, []⟩
  | i :: a => (t.locate? a).bind fun l => l.tree.children[i]?.map l.child

theorem locate?_cons {t : Tree α} {i : Nat} {a : List Nat} {l : Located α} :
    t.locate? (i :: a) = some l ↔
      ∃ p u, t.locate? a = some p ∧ p.tree.children[i]? = some u ∧ p.child u = l := by
  rw [locate?]
  cases t.locate? a with
  | none => simp
  | some p => simp

theorem locate?_map (f : α → β) (t : Tree α) (a : List Nat) :
    (t.map f).locate? a = (t.locate? a).map fun l => ⟨l.tree.map f, l.above.map f⟩ := by
  induction a with
  | nil => rfl
  | cons i a ih =>
    rw [locate?, locate?, ih]
    cases t.locate? a with
    | none => rfl
    | some l =>
      simp only [Option.map_some, Option.bind_some, children_map, List.getElem?_map, Option.map_map]
      congr 1
      funext u
      show Located.child _ _ = _
      simp only [Located.child, Function.comp_apply, label_map, List.map_cons]

/-- The nodes below a child are those of the child, beneath the label above it. -/
theorem locate?_append_singleton (t : Tree α) (a : List Nat) (i : Nat) :
    t.locate? (a ++ [i]) = t.children[i]?.bind fun u =>
      (u.locate? a).map fun l => ⟨l.tree, l.above ++ [t.label]⟩ := by
  induction a with
  | nil => exact (Option.bind_some _ _).trans (Option.map_eq_bind ..)
  | cons j a ih =>
    rw [List.cons_append, locate?, ih]
    cases t.children[i]? with
    | none => rfl
    | some u =>
      rw [Option.bind_some, Option.bind_some, locate?]
      cases u.locate? a with
      | none => rfl
      | some l =>
        simp only [Option.map_some, Option.bind_some, Option.map_map]
        rfl

theorem mem_walk_of_locate? {t : Tree α} {a : List Nat} {l : Located α}
    (h : t.locate? a = some l) : l ∈ t.walk [] := by
  induction a generalizing l with
  | nil =>
    obtain rfl : ⟨t, []⟩ = l := Option.some.inj h
    exact self_mem_walk [] t
  | cons i a ih =>
    obtain ⟨p, u, hp, hu, rfl⟩ := locate?_cons.1 h
    exact child_mem_walk (ih hp) (List.mem_of_getElem? hu)

/-- Above a node with an address stands a node with every shorter address. -/
theorem exists_locate?_of_append {t : Tree α} {c a : List Nat} {l : Located α}
    (h : t.locate? (c ++ a) = some l) : ∃ p, t.locate? a = some p := by
  induction c generalizing l with
  | nil => exact ⟨l, h⟩
  | cons i c ih =>
    obtain ⟨p, u, hp, -, -⟩ := locate?_cons.1 h
    exact ih hp

/-- The nodes are those with an address. -/
theorem mem_walk_iff_locate? {t : Tree α} {l : Located α} :
    l ∈ t.walk [] ↔ ∃ a, t.locate? a = some l := by
  refine ⟨fun h => ?_, fun ⟨a, h⟩ => mem_walk_of_locate? h⟩
  suffices below : ∀ (s : Tree α) (above : List α) (a : List Nat),
      t.locate? a = some ⟨s, above⟩ → ∀ l ∈ s.walk above, ∃ b, t.locate? b = some l from
    below t [] [] rfl l h
  intro s
  induction s using Tree.induction with
  | step x kids ih =>
    intro above a ha l hl
    rcases mem_walk.1 hl with rfl | ⟨k, hk, hlk⟩
    · exact ⟨a, ha⟩
    · obtain ⟨i, hi⟩ := List.mem_iff_getElem?.1 hk
      exact ih k hk (x :: above) (i :: a) (locate?_cons.2 ⟨_, k, ha, hi, rfl⟩) l hlk

/-! ## Downwards -/

/-- A node is the root, or the child of a node. -/
theorem eq_root_or_exists_child {t : Tree α} {l : Located α} (h : l ∈ t.walk []) :
    l = ⟨t, []⟩ ∨ ∃ p ∈ t.walk [], ∃ u ∈ p.tree.children, l = p.child u := by
  obtain ⟨a, ha⟩ := mem_walk_iff_locate?.1 h
  cases a with
  | nil => exact Or.inl (Option.some.inj ha).symm
  | cons i a =>
    obtain ⟨p, u, hp, hu, rfl⟩ := locate?_cons.1 ha
    exact Or.inr ⟨p, mem_walk_of_locate? hp, u, List.mem_of_getElem? hu, rfl⟩

/-- What holds of the root and of the children of every node of which it holds, holds of every
node. -/
theorem forall_walk_down {P : Located α → Prop} (t : Tree α) (root : P ⟨t, []⟩)
    (step : ∀ l ∈ t.walk [], P l → ∀ u ∈ l.tree.children, P (l.child u)) :
    ∀ l ∈ t.walk [], P l := by
  intro l hl
  obtain ⟨a, ha⟩ := mem_walk_iff_locate?.1 hl
  clear hl
  induction a generalizing l with
  | nil =>
    obtain rfl : ⟨t, []⟩ = l := Option.some.inj ha
    exact root
  | cons i a ih =>
    obtain ⟨p, u, hp, hu, rfl⟩ := locate?_cons.1 ha
    exact step p (mem_walk_of_locate? hp) (ih p hp) u (List.mem_of_getElem? hu)

/-- A label above a node is that of a node with the former below it. -/
theorem exists_mem_walk_of_mem_above {t : Tree α} {a : α} :
    ∀ l ∈ t.walk [], a ∈ l.tree.label :: l.above →
      ∃ p ∈ t.walk [], p.tree.label = a ∧ l ∈ p.tree.walk p.above := by
  refine forall_walk_down t ?_ ?_
  · intro ha
    obtain rfl : a = t.label := List.mem_singleton.1 ha
    exact ⟨⟨t, []⟩, self_mem_walk [] t, rfl, self_mem_walk [] t⟩
  · intro l hl ih u hu ha
    rcases List.mem_cons.1 ha with rfl | ha
    · exact ⟨l.child u, child_mem_walk hl hu, rfl, self_mem_walk _ u⟩
    · obtain ⟨p, hp, hpa, hlp⟩ := ih ha
      exact ⟨p, hp, hpa, child_mem_walk hlp hu⟩

end Tree

end ChartLowering
