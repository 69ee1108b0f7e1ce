import ChartLowering.Json.Basic

/-
  Properties in two layers.

  What the user set lies over what was derived: a look-up prefers the explicit layer, whichever
  layer was written first, and a property derived later never hides one that was set. `combine` is
  the view of both layers that is written out; `get?_combine` says that it agrees with look-ups.
-/

namespace ChartLowering

/-- Explicit properties over implicit ones. -/
structure Layered where
  explicit : Fields
  implicit : Fields
deriving Repr, DecidableEq

namespace Layered

def get? (l : Layered) (k : String) : Option Json :=
  (l.explicit.get? k).or (l.implicit.get? k)

/-- The value of a property, null if there is none, and whether it is explicit. -/
def getWithLayer (l : Layered) (k : String) : Json × Bool :=
  match l.explicit.get? k with
  | some v => (v, true)
  | none => ((l.implicit.get? k).getD .null, false)

def has (l : Layered) (k : String) : Bool := l.explicit.contains k || l.implicit.contains k

def set (l : Layered) (k : String) (v : Json) (isExplicit : Bool) : Layered :=
  if isExplicit then { l with explicit := l.explicit.insert k v }
  else { l with implicit := l.implicit.insert k v }

/-- Sets a property to a value in a layer, as `getWithLayer` gives them. -/
def setWithLayer (l : Layered) (k : String) (v : Json × Bool) : Layered := l.set k v.1 v.2

/-- Both layers in one, the explicit one last. -/
def combine (l : Layered) : Fields := l.implicit.overlay l.explicit

theorem get?_combine (l : Layered) (h : l.explicit.keys.Nodup) (k : String) :
    l.combine.get? k = l.get? k :=
  OrderedMap.get?_overlay l.implicit l.explicit h k

end Layered

end ChartLowering
