import ChartLowering.Dataset.Registry
import ChartLowering.ViewTree.Basic

/-
  The pipelines of a tree of views.

  Every unit with data gets a pipeline from the root dataset of its data: geometry is extracted if
  its projection is fit, and coordinates are projected if it has a projection. A composite view with
  data of its own, and a facet with any data, gets its root dataset as it is.
-/

namespace ChartLowering

namespace View

def mainOutput (v : View) : String := v.partName OutputKind.main.name

/-- The transforms of a unit, which is the view with the given index. -/
def transforms (v : View) (u : UnitSpec) (index : Nat) : List Transform :=
  match v.component? .projection none with
  | none => []
  | some projection =>
    (if projection.isFit then u.extractions v.partName else []) ++
      u.projections projection.name v.partName (some index)

/-- Registers the output of the view with the given index, if the view has one. -/
def registerOutput (r : Registry) (v : View) (index : Nat) : Except CompileError Registry :=
  match v.data with
  | none => .ok r
  | some d =>
    match v.form with
    | .unit u => (r.sourceFor d).map fun (s, r) =>
        r.register v.mainOutput ⟨some s, v.transforms u index⟩
    | form =>
      if v.ownData.isSome || form.kind == .facet then
        (r.sourceFor d).map fun (s, r) => r.register v.mainOutput ⟨some s, []⟩
      else .ok r

end View

namespace Registry

/-- Registers the outputs of views, the first of which has the given index. -/
def registerViews (r : Registry) (index : Nat) : List View → Except CompileError Registry
  | [] => .ok r
  | v :: rest => do
    let r ← v.registerOutput r index
    registerViews r (index + 1) rest

end Registry

end ChartLowering
