import ChartLowering.Component.Basic
import ChartLowering.NameScope
import ChartLowering.Schema.TopLevel
import ChartLowering.Text.Identifier
import ChartLowering.Tree

/-
  The tree of views that a compile runs over.

  Every view of the specification becomes a node with a name, the data that it reads (its own, or
  those of the nearest view around it that has any), a name scope and its components. A view without
  a name of its own is named by its place: the name of its parent, how the parent is composed, and
  its position among its siblings.
-/

namespace ChartLowering

/-- What a view consists of besides its children. -/
inductive ViewForm where
  | unit (unit : UnitSpec)
  | layer (resolve : ResolveSpec)
  | facet (mapping : FacetMapping) (resolve : ResolveSpec)
  | concat (resolve : ResolveSpec)
deriving Repr, DecidableEq

namespace ViewForm

def kind : ViewForm → ViewKind
  | .unit _ => .unit
  | .layer _ => .layer
  | .facet _ _ => .facet
  | .concat _ => .concat

/-- What a composite view says about sharing; a unit shares nothing. -/
def resolve : ViewForm → ResolveSpec
  | .unit _ => .silent
  | .layer r | .facet _ r | .concat r => r

end ViewForm

/-- What a component belongs to: a family, and a channel unless the family is the projections. -/
structure Slot where
  family : Family
  channel : Option Channel
deriving Repr, DecidableEq

/-- A view in the tree. -/
structure View where
  name : String
  form : ViewForm
  width : Option Binary64
  height : Option Binary64
  ownData : Option DataSpec
  data : Option DataSpec
  scope : NameScope
  components : OrderedMap Slot Component
deriving Repr, DecidableEq

namespace View

def kind (v : View) : ViewKind := v.form.kind

/-- Units and layers have a size of their own. -/
def isSized (v : View) : Bool := v.kind == .unit || v.kind == .layer

/-- The generated name of a part of the view. -/
def partName (v : View) (part : String) : String := Text.qualified v.name part

def explicitSize (v : View) : Dimension → Option Binary64
  | .width => v.width
  | .height => v.height

def component? (v : View) (f : Family) (c : Option Channel) : Option Component :=
  v.components.get? ⟨f, c⟩

/-- The component of a slot unless it was merged into the parent's. -/
def liveComponent? (v : View) (f : Family) (c : Option Channel) : Option Component :=
  (v.component? f c).filter Component.isLive

def putComponent (v : View) (f : Family) (c : Option Channel) (k : Component) : View :=
  { v with components := v.components.insert ⟨f, c⟩ k }

/-- The live components of a family in the order in which they were made. -/
def liveComponents (v : View) (f : Family) : List (Option Channel × Component) :=
  v.components.entries.filterMap fun e =>
    if e.1.family = f ∧ e.2.isLive then some (e.1.channel, e.2) else none

def seed (v : View) (kind : NameKind) (name : String) : View :=
  { v with scope := v.scope.seed kind name }

def rename (v : View) (kind : NameKind) (name target : String) : View :=
  { v with scope := v.scope.rename kind name target }

/-- A name as seen from a view, of which the views above are given nearest first. -/
def lookup (v : View) (above : List View) (kind : NameKind) (name : String) : String :=
  NameScope.lookup ((v :: above).map View.scope) kind name

end View

/-- The trees of views. -/
abbrev ViewTree := Tree View

namespace ViewTree

/-- The node of a view before anything is resolved. A sized view seeds its size signals. -/
def viewOf (name : String) (form : ViewForm) (base : ViewBase) (inherited : Option DataSpec) :
    View :=
  let bare : View :=
    { name, form, width := base.width, height := base.height, ownData := base.data,
      data := base.data.or inherited, scope := .empty, components := .empty }
  if bare.isSized then
    Dimension.all.foldl (fun v d => v.seed .signal (v.partName d.name)) bare
  else bare

/-- The name of a child view: its own unless empty, or else the parent's name and its position. -/
def childName (parent : String) (position : String) (own : Option String) : String :=
  match own with
  | some name =>
    if !name.isEmpty then name
    else if parent.isEmpty then position else parent ++ "_" ++ position
  | none => if parent.isEmpty then position else parent ++ "_" ++ position

/-- The position of the `i`-th layer. -/
def layerPosition (i : Nat) : String := "layer_" ++ toString i

/-- The position of the `i`-th view of a concatenation. -/
def concatPosition (i : Nat) : String := "concat_" ++ toString i

mutual

/-- The tree of a view with a given name, below data that it may inherit. -/
def build (name : String) (inherited : Option DataSpec) : ViewSpec → ViewTree
  | .unit base u => .node (viewOf name (.unit u) base inherited) []
  | .layer base children r =>
    let v := viewOf name (.layer r) base inherited
    .node v (buildAll name layerPosition v.data 0 children)
  | .facet base mapping child r =>
    let v := viewOf name (.facet mapping r) base inherited
    .node v [build (childName name "child" child.base.name) v.data child]
  | .concat base children _ r =>
    let v := viewOf name (.concat r) base inherited
    .node v (buildAll name concatPosition v.data 0 children)

/-- The trees of sibling views from position `i` on. -/
def buildAll (parent : String) (position : Nat → String) (inherited : Option DataSpec) (i : Nat) :
    List ViewSpec → List ViewTree
  | [] => []
  | child :: rest =>
    build (childName parent (position i) child.base.name) inherited child ::
      buildAll parent position inherited (i + 1) rest

end

/-- The tree of a whole view. -/
def ofSpec (spec : ViewSpec) : ViewTree := build (spec.base.name.getD "") none spec

end ViewTree

end ChartLowering
