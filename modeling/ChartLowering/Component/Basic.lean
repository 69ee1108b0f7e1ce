import ChartLowering.Component.Layered

/-
  Named components.

  A component is what a view contributes to one family for one channel: a scale, an axis, a legend
  or a projection. It has a name and two layers of properties; a projection that is fit to its data
  also has the sources that it is fit to and references to the sides of the area that it fills. A
  component that was merged into one of the parent view stays where it is and is no longer written
  out.
-/

namespace ChartLowering

/-- What a projection is fit to: a geometry signal, or the rows of an output dataset. -/
inductive FitSource where
  /-- A reference to a signal, with what else is noted in it. -/
  | signal (name : String) (notes : Fields)
  | output (name : String)
  /-- A value that names nothing to fit to. -/
  | unusable (value : Json)
deriving Repr, DecidableEq

namespace FitSource

/-- The source that a value stands for: a text names an output, an object refers to a signal. -/
def ofJson (j : Json) : FitSource :=
  match j, j.field? "signal" with
  | .str name, _ => .output name
  | .obj fs, some (.str name) => .signal name ((OrderedMap.mk fs).filterKeys (· != "signal"))
  | _, _ => .unusable j

def toJson : FitSource → Json
  | .signal name notes => .obj (("signal", .str name) :: notes.entries)
  | .output name => .str name
  | .unusable j => j

end FitSource

/-- A named component. No fit data means that it is not fit; an empty list is a fit that nothing
was gathered for. The size refers to the width and the height of the area that is filled. The
implicit layer is kept without the name. -/
structure Component where
  name : String
  explicit : Fields
  implicit : Fields
  specified : Fields
  size : Option (List Json)
  data : Option (List FitSource)
  merged : Bool
deriving Repr, DecidableEq

namespace Component

/-- A component as its view defines it. What is explicit at first is remembered as specified. -/
def define (name : String) (explicit implicit : Fields) (size : Option (List Json))
    (data : Option (List FitSource)) : Component where
  name := name
  explicit := explicit
  implicit := implicit.filterKeys (· != "name")
  specified := explicit
  size := size
  data := data
  merged := false

def isFit (c : Component) : Bool := c.data.isSome

def isLive (c : Component) : Bool := !c.merged

/-- Both layers; the name is an implicit property. -/
def layers (c : Component) : Layered := ⟨c.explicit, c.implicit.insert "name" (.str c.name)⟩

def get? (c : Component) (k : String) : Option Json := c.layers.get? k

/-- Adds a derived property. -/
def derive (c : Component) (k : String) (v : Json) : Component :=
  { c with implicit := c.implicit.insert k v }

/-- All properties with the name, the explicit ones last. -/
def combine (c : Component) : Fields := c.layers.combine

/-- All properties but the name. -/
def properties (c : Component) : Fields := c.combine.filterKeys (· != "name")

end Component

end ChartLowering
