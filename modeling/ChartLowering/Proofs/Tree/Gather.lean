import ChartLowering.Proofs.Tree.Address
import Mathlib.Data.List.Flatten
import Mathlib.Data.List.Perm.Basic

/-
  What walks find.

  A walk gathers labels: it puts the label of a node to what it gathers in its children (`gather`).
  With the label in front this is the order of `walk` (`gather_cons`), with the label last that of
  `walkUp` (`gather_putLast`), which is a rearrangement with the children of every node in order before
  it (`children_sublist_gather_putLast`).
-/

namespace ChartLowering

namespace Tree

universe u v

variable {α : Type u} {β : Type v}

mutual

/-- What a walk finds that puts the label of a node to what is found in its children. -/
def gather (put : α → List α → List α) : Tree α → List α
  | .node a kids => put a (gatherAll put kids)

def gatherAll (put : α → List α → List α) : List (Tree α) → List α
  | [] => []
  | t :: rest => gather put t ++ gatherAll put rest

end

theorem gatherAll_eq_flatMap (put : α → List α → List α) (ts : List (Tree α)) :
    gatherAll put ts = ts.flatMap (gather put) := by
  induction ts with
  | nil => rfl
  | cons t rest ih => rw [gatherAll, ih, List.flatMap_cons]

theorem gather_node (put : α → List α → List α) (a : α) (kids : List (Tree α)) :
    gather put (.node a kids) = put a (kids.flatMap (gather put)) := by
  rw [gather, gatherAll_eq_flatMap]

theorem gather_map {f : α → β} {put : α → List α → List α} {put' : β → List β → List β}
    (h : ∀ a below, put' (f a) (below.map f) = (put a below).map f) (t : Tree α) :
    (t.map f).gather put' = (t.gather put).map f := by
  induction t using Tree.induction with
  | step a kids ih =>
    rw [map_node, gather_node, gather_node, ← h, List.flatMap_map, List.map_flatMap,
      List.flatMap_congr ih]

theorem gather_cons (t : Tree α) : t.gather List.cons = t.labels := by
  induction t using Tree.induction with
  | step a kids ih => rw [gather_node, labels_node, List.flatMap_congr ih]

theorem map_label_walk (t : Tree α) (above : List α) :
    (t.walk above).map (fun l => l.tree.label) = t.labels := by
  rw [← List.nil_append above, walk_append, List.map_map]
  rfl

/-- A node after its children. -/
def putLast (a : α) (below : List α) : List α := below ++ [a]

theorem gather_putLast (t : Tree α) (above : List α) :
    t.gather putLast = (t.walkUp above).map fun l => l.tree.label := by
  induction t using Tree.induction generalizing above with
  | step a kids ih =>
    have hall : ∀ ts : List (Tree α), (∀ t ∈ ts, t ∈ kids) →
        (walkUpAll (a :: above) ts).map (fun l => l.tree.label) = ts.flatMap (gather putLast) := by
      intro ts
      induction ts with
      | nil => intro _; rfl
      | cons t rest ihrest =>
        intro hts
        obtain ⟨ht, hrest⟩ := List.forall_mem_cons.1 hts
        rw [walkUpAll, List.map_append, ihrest hrest, List.flatMap_cons, ih t ht (a :: above)]
    rw [gather_node, walkUp, List.map_append, hall kids fun _ h => h]
    rfl

theorem gather_putLast_perm (t : Tree α) : (t.gather putLast).Perm t.labels := by
  induction t using Tree.induction with
  | step a kids ih =>
    rw [gather_node, labels_node]
    exact (List.perm_append_singleton a _).trans (.cons a (List.Perm.flatMap_left kids ih))

theorem singleton_sublist_gather_putLast (t : Tree α) : [t.label].Sublist (t.gather putLast) := by
  cases t with
  | node a kids =>
    rw [gather_node]
    exact List.sublist_append_right _ [a]

/-- The children of any node stand in order before it. -/
theorem children_sublist_gather_putLast {t : Tree α} {above : List α} {l : Located α}
    (h : l ∈ t.walk above) :
    (l.tree.children.map label ++ [l.tree.label]).Sublist (t.gather putLast) := by
  induction t using Tree.induction generalizing above with
  | step a kids ih =>
    rw [gather_node]
    rcases mem_walk.1 h with rfl | ⟨k, hk, hlk⟩
    · refine List.Sublist.append ?_ (List.Sublist.refl [a])
      rw [List.map_eq_flatMap]
      exact List.Sublist.flatMap_right kids fun k _ => singleton_sublist_gather_putLast k
    · have hkids : (k.gather putLast).Sublist (kids.flatMap (gather putLast)) :=
        List.flatMap_singleton (gather putLast) k ▸
          (List.singleton_sublist.2 hk).flatMap (gather putLast)
      exact (ih k hk hlk).trans (hkids.trans (List.sublist_append_left _ [a]))

end Tree

end ChartLowering
