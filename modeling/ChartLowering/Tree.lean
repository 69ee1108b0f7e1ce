/-
  Trees and their walks.

  A located tree is a subtree together with the labels above it, nearest first. `walk` lists the
  located subtrees with every tree before its children, `walkUp` with every tree after them; the
  position in `walk` is the index that a node is addressed by.
-/

namespace ChartLowering

universe u v

/-- A label with child trees in order. -/
inductive Tree (α : Type u) where
  | node (label : α) (children : List (Tree α))
deriving Repr

/-- A subtree and the labels above it, nearest first. -/
structure Located (α : Type u) where
  tree : Tree α
  above : List α

namespace Tree

variable {α : Type u} {β : Type v}

def label : Tree α → α
  | .node a _ => a

def children : Tree α → List (Tree α)
  | .node _ kids => kids

def setLabel (t : Tree α) (a : α) : Tree α := .node a t.children

mutual

/-- The number of nodes. -/
def size : Tree α → Nat
  | .node _ kids => sizes kids + 1

def sizes : List (Tree α) → Nat
  | [] => 0
  | t :: rest => size t + sizes rest

end

mutual

/-- The subtrees with the labels above them, every tree before its children. -/
def walk (above : List α) : Tree α → List (Located α)
  | .node a kids => ⟨.node a kids, above⟩ :: walkAll (a :: above) kids

def walkAll (above : List α) : List (Tree α) → List (Located α)
  | [] => []
  | t :: rest => walk above t ++ walkAll above rest

end

mutual

/-- The subtrees with the labels above them, every tree after its children. -/
def walkUp (above : List α) : Tree α → List (Located α)
  | .node a kids => walkUpAll (a :: above) kids ++ [⟨.node a kids, above⟩]

def walkUpAll (above : List α) : List (Tree α) → List (Located α)
  | [] => []
  | t :: rest => walkUp above t ++ walkUpAll above rest

end

/-- The labels in the order of `walk`. -/
def labels (t : Tree α) : List α := (t.walk []).map fun l => l.tree.label

/-- Where a node stands: the indices of its parent and of its children. -/
structure Place where
  parent : Option Nat
  children : List Nat
deriving Repr, DecidableEq

mutual

/-- The same tree labelled by the positions in `walk`, the first of which is `i`. -/
def indices (i : Nat) : Tree α → Tree Nat
  | .node _ kids => .node i (indicesAll (i + 1) kids)

def indicesAll (i : Nat) : List (Tree α) → List (Tree Nat)
  | [] => []
  | t :: rest => indices i t :: indicesAll (i + t.size) rest

end

/-- The places of all nodes in the order of `walk`. -/
def places (t : Tree α) : List Place :=
  ((t.indices 0).walk []).map fun l => ⟨l.above.head?, l.tree.children.map label⟩

mutual

/-- Changes the subtree with index `i`, given the labels above it. -/
def modifyAt (f : List α → Tree α → Tree α) (above : List α) (i : Nat) : Tree α → Tree α
  | .node a kids =>
    if i = 0 then f above (.node a kids)
    else .node a (modifyAllAt f (a :: above) (i - 1) kids)

def modifyAllAt (f : List α → Tree α → Tree α) (above : List α) (i : Nat) :
    List (Tree α) → List (Tree α)
  | [] => []
  | t :: rest =>
    if i < t.size then modifyAt f above i t :: rest
    else t :: modifyAllAt f above (i - t.size) rest

end

mutual

theorem length_walk (above : List α) : ∀ t : Tree α, (t.walk above).length = t.size
  | .node a kids => by simp [walk, size, length_walkAll (a :: above) kids]

theorem length_walkAll (above : List α) :
    ∀ ts : List (Tree α), (walkAll above ts).length = sizes ts
  | [] => rfl
  | t :: rest => by simp [walkAll, sizes, length_walk above t, length_walkAll above rest]

end

end Tree

end ChartLowering
