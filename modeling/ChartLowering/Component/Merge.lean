import ChartLowering.Component.Basic

/-
  Merging the components of sibling views.

  Two components merge if they fill the same area and either agree on every compared property or one
  of them sets no property at all; the other one is then kept. Components are reduced from left to
  right, and the first conflict ends the reduction. A conflict is an ordinary outcome.
-/

namespace ChartLowering

namespace Component

/-- Whether two property layers set the same properties of a list to equal values. -/
def agreeOn (properties : List String) (a b : Fields) : Bool :=
  properties.all fun p => Json.sameOption (a.get? p) (b.get? p)

/-- Whether two components fill areas of equal size, or neither fills one. -/
def sameSize (a b : Component) : Bool :=
  Json.sameOption (a.size.map Json.arr) (b.size.map Json.arr)

/-- Which of two components a merge keeps. -/
inductive Side where
  | first
  | second
deriving Repr, DecidableEq

/-- The side that a merge keeps; none if the components are in conflict. -/
def merge? (properties : List String) (a b : Component) : Option Side :=
  if !sameSize a b then none
  else if agreeOn properties a.explicit b.explicit then some .first
  else if a.explicit.isEmpty then some .second
  else if b.explicit.isEmpty then some .first
  else none

/-- Reduces items by their components, starting from one that is kept so far. -/
def reduceFrom {α : Type} (component : α → Component) (properties : List String) (kept : α) :
    List α → Option α
  | [] => some kept
  | a :: rest =>
    match merge? properties (component kept) (component a) with
    | some .first => reduceFrom component properties kept rest
    | some .second => reduceFrom component properties a rest
    | none => none

/-- The outcome of a reduction. -/
inductive Reduction (α : Type) where
  | conflict
  | nothing
  | kept (representative : α)
deriving Repr, DecidableEq

/-- Reduces a list of items by their components. -/
def reduce {α : Type} (component : α → Component) (properties : List String) :
    List α → Reduction α
  | [] => .nothing
  | a :: rest =>
    match reduceFrom component properties a rest with
    | some r => .kept r
    | none => .conflict

end Component

end ChartLowering
