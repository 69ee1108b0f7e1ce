import ChartLowering.Settings.Basic
import ChartLowering.ViewTree.Basic

/-
  View sizes.

  Layers lie over each other and so have one size: a layer hands its own size signals to its sized
  children. A size signal is live where it still has its own name; only live signals are defined.
  The value of a size is the first one given in the group of layers, or else what the chart
  configures, or else what the settings say.
-/

namespace ChartLowering

namespace ViewTree

/-- A sized child takes over the size signals of its layer. -/
def shareSize (layer child : View) : View :=
  if child.isSized then
    Dimension.all.foldl
      (fun v d => v.rename .signal (child.partName d.name) (layer.partName d.name)) child
  else child

/-- What a view does to its child's size. -/
def layoutChild (parent child : View) : View :=
  if parent.kind = .layer then shareSize parent child else child

mutual

/-- A tree below a parent, with the size signals of the parent's and of every layer's children
renamed. -/
def layoutBelow (parent : Option View) : ViewTree → ViewTree
  | .node v kids => .node ((parent.map fun p => layoutChild p v).getD v) (layoutAll v kids)

def layoutAll (parent : View) : List ViewTree → List ViewTree
  | [] => []
  | t :: rest => layoutBelow (some parent) t :: layoutAll parent rest

end

/-- Renames the size signals of every layer's children. -/
def layout (t : ViewTree) : ViewTree := layoutBelow none t

mutual

/-- The first size given in a group of layers. -/
def groupSize? (d : Dimension) : ViewTree → Option Binary64
  | .node v kids => (v.explicitSize d).or (if v.kind = .layer then groupSizeAll? d kids else none)

def groupSizeAll? (d : Dimension) : List ViewTree → Option Binary64
  | [] => none
  | t :: rest => (if t.label.isSized then groupSize? d t else none).or (groupSizeAll? d rest)

end

/-- The value of a size signal. -/
def defaultSize (config : Config) (settings : Settings) (d : Dimension) (t : ViewTree) : Json :=
  match (groupSize? d t).or (config.view.size d) with
  | some x => .float x
  | none => settings.continuousSize d

end ViewTree

namespace View

/-- The size signal of a view, as it is named after sharing. -/
def sizeSignal (v : View) (above : List View) (d : Dimension) : String :=
  v.lookup above .signal (v.partName d.name)

/-- Whether the view defines its own size signal. -/
def hasLiveSize (v : View) (above : List View) (d : Dimension) : Bool :=
  v.isSized && v.sizeSignal above d == v.partName d.name

end View

end ChartLowering
