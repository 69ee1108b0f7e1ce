import ChartLowering.Component.Merge
import ChartLowering.ViewTree.Basic
import ChartLowering.Resolve.Unit

/-
  Sharing the components of a composite view.

  A composite view tries to merge the live components of its children, family by family and slot by
  slot. If they merge, the view gets a component of its own, with the properties that the kept one
  was given, and with the fit sources of all the children in order; the children's components are
  marked as merged and their names renamed. If they conflict they all stay as they are.
-/

namespace ChartLowering

namespace View

/-- Whether a composite shares where nothing is said: layers and facets do. -/
def defaultMode : ViewKind → ResolveMode
  | .concat => .independent
  | _ => .shared

/-- The mode of a family's channel; guides follow the scale where only that is given. -/
def resolveMode (v : View) (f : Family) (c : Channel) : ResolveMode :=
  ((v.form.resolve.mode? f c).or (v.form.resolve.mode? .scale c)).getD (defaultMode v.kind)

/-- Whether the components of a slot may be shared at a view. Projections always may; a guide needs
a live scale of the view. -/
def mayShare (v : View) (f : Family) (c : Option Channel) : Bool :=
  match c with
  | none => true
  | some channel =>
    f == .projection ||
      (v.resolveMode f channel == .shared &&
        (f == .scale || (v.liveComponent? .scale c).isSome))

/-- The fit sources of all components that are fit, in order; none if none is fit. -/
def gatherFit (merged : List Component) : Option (List FitSource) :=
  match merged.filterMap Component.data with
  | [] => none
  | lists => some lists.flatten

/-- The component of a composite that takes the place of its children's. A guide refers to the
view's own scale. -/
def sharedComponent (v : View) (f : Family) (c : Option Channel) (representative : Component)
    (merged : List Component) : Component :=
  let k := Component.define (v.componentName f c) representative.specified representative.implicit
    representative.size (gatherFit merged)
  match f.isGuide, v.component? .scale c with
  | true, some scale => k.derive "scale" (.str scale.name)
  | _, _ => k

/-- A child after its component of a slot was merged into one of the given name. -/
def handOver (f : Family) (c : Option Channel) (name : String) (child : View) : View :=
  match child.liveComponent? f c with
  | none => child
  | some k =>
    let renamed := match f.nameKind? with
      | some kind => child.rename kind k.name name
      | none => child
    renamed.putComponent f c { k with merged := true }

/-- A composite with its own component of a slot. -/
def adopt (v : View) (f : Family) (c : Option Channel) (k : Component) : View :=
  match f.nameKind? with
  | some kind => (v.seed kind k.name).putComponent f c k
  | none => v.putComponent f c k

/-- Shares one slot, if that is allowed and the children's components merge. -/
def shareSlot (state : View × List View) (slot : Slot) : View × List View :=
  let (v, kids) := state
  let (f, c) := (slot.family, slot.channel)
  if v.mayShare f c then
    let present := kids.filterMap (·.liveComponent? f c)
    match Component.reduce id f.properties present with
    | .kept representative =>
      let k := v.sharedComponent f c representative present
      (v.adopt f c k, kids.map (handOver f c k.name))
    | _ => (v, kids)
  else (v, kids)

/-- All slots in the order in which they are shared. -/
def sharingOrder : List Slot :=
  Family.resolutionOrder.flatMap fun f => f.slots.map fun c => ⟨f, c⟩

/-- A composite and its children after sharing. -/
def resolveComposite (v : View) (kids : List View) : View × List View :=
  sharingOrder.foldl shareSlot (v, kids)

end View

end ChartLowering
