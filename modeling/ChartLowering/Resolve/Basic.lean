import ChartLowering.Resolve.Composite

/-
  Resolving a tree of views.

  Children are resolved before their parents: a unit makes its components, and a composite then
  shares those of its children. What happens in a subtree depends on the views above it only through
  the names of its size signals.
-/

namespace ChartLowering

namespace ViewTree

/-- Puts new labels on sibling trees. -/
def setLabels : List ViewTree → List View → List ViewTree
  | t :: ts, v :: vs => t.setLabel v :: setLabels ts vs
  | ts, [] => ts
  | [], _ => []

/-- The step of one view whose children are resolved. -/
def resolveNode (config : Config) (settings : Settings) (above : List View) (v : View)
    (kids : List ViewTree) : ViewTree :=
  match v.form with
  | .unit u => .node (v.resolveUnit config settings above u) kids
  | _ =>
    let (v, labels) := v.resolveComposite (kids.map Tree.label)
    .node v (setLabels kids labels)

mutual

def resolve (config : Config) (settings : Settings) (above : List View) : ViewTree → ViewTree
  | .node v kids =>
    resolveNode config settings above v (resolveAll config settings (v :: above) kids)

def resolveAll (config : Config) (settings : Settings) (above : List View) :
    List ViewTree → List ViewTree
  | [] => []
  | t :: rest => resolve config settings above t :: resolveAll config settings above rest

end

/-- The output datasets that the units' projections ask for, in the order of the units. -/
def requestedOutputs (t : ViewTree) : List String :=
  t.labels.flatMap fun v =>
    match v.form, v.component? .projection none with
    | .unit _, some k => (k.data.getD []).filterMap fun
      | .output name => some name
      | _ => none
    | _, _ => []

end ViewTree

end ChartLowering
