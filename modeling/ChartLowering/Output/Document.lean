import ChartLowering.Output.Mark

/-
  The specification that a compile writes.

  A document lists signals, datasets, projections, scales, axes, legends and marks. Live components
  are written in the order of the views; a guide and a projection are completed by what follows from
  their view, and explicit properties go over everything else.
-/

namespace ChartLowering

/-- A signal with its value. -/
structure SignalDef where
  name : String
  value : Json
deriving Repr, DecidableEq

/-- A compiled specification. -/
structure Document where
  schema : Json
  signals : List SignalDef
  data : List DatasetDef
  projections : List Fields
  scales : List Fields
  axes : List Fields
  legends : List Fields
  marks : List Mark
deriving Repr

/-- The components of a document, and the datasets that its projections consult. -/
structure ComponentLists where
  projections : List Fields
  scales : List Fields
  axes : List Fields
  legends : List Fields
  consulted : List String
deriving Repr, DecidableEq

namespace ComponentLists

def empty : ComponentLists := ⟨[], [], [], [], []⟩

def append (a b : ComponentLists) : ComponentLists :=
  ⟨a.projections ++ b.projections, a.scales ++ b.scales, a.axes ++ b.axes, a.legends ++ b.legends,
    a.consulted ++ b.consulted⟩

end ComponentLists

/-- The expression of what a projection is fit to: one source as it is, several as a list. -/
def fitExpression : List String → Except CompileError String
  | [] => .error .emptyFit
  | [source] => .ok source
  | sources => .ok ("[" ++ ", ".intercalate sources ++ "]")

namespace View

/-- The scale that a guide refers to: a name is looked up, another plain value is let be. A list or
an object cannot be looked up. -/
def guideScale (v : View) (above : List View) (k : Component) : Except CompileError Json :=
  match (k.get? "scale").getD .null with
  | .str name => .ok (.str (v.lookup above .scale name))
  | .arr _ | .obj _ | .table _ => .error .scaleNotAName
  | j => .ok j

def axisFields (v : View) (above : List View) (k : Component) : Except CompileError Fields :=
  (v.guideScale above k).map fun scale =>
    (OrderedMap.mk [("scale", scale), ("orient", (k.get? "orient").getD .null)]).overlay k.explicit

def legendFields (v : View) (above : List View) (c : Option Channel) (k : Component) :
    Except CompileError Fields :=
  (v.guideScale above k).map fun scale =>
    (OrderedMap.mk [((c.map Channel.legendTarget).getD "", scale)]).overlay k.explicit

/-- The two signals of the area that a fit projection fills. -/
def fitArea (v : View) (above : List View) (k : Component) : String × String :=
  match (k.size.getD []).map fun (side : Json) => side.field? "signal" with
  | some (.str width) :: some (.str height) :: _ => (width, height)
  | _ => (v.sizeSignal above .width, v.sizeSignal above .height)

/-- A projection: one that is fit fills its area with what it is fit to, any other is centred. -/
def projectionFields (r : Registry) (v : View) (above : List View) (k : Component) :
    Except CompileError Fields :=
  match k.data with
  | none =>
    let centre := "[" ++ v.sizeSignal above .width ++ " / 2, " ++ v.sizeSignal above .height ++
      " / 2]"
    .ok ((OrderedMap.mk [("name", .str k.name), ("translate", Json.signalRef centre)]).overlay
      k.properties)
  | some sources =>
    match r.fitExpressions sources with
    | [] => .error (.fitSourceMissing k.name v.name)
    | expressions =>
      let (width, height) := v.fitArea above k
      (fitExpression expressions).map fun fit =>
        (OrderedMap.mk [("name", .str k.name),
          ("size", Json.signalRef ("[" ++ width ++ ", " ++ height ++ "]")),
          ("fit", Json.signalRef fit)]).overlay k.properties

/-- The live components of one view, completed: scales, axes, legends and projections. -/
def componentLists (r : Registry) (v : View) (above : List View) :
    Except CompileError ComponentLists := do
  let axes ← (v.liveComponents .axis).mapM fun e => v.axisFields above e.2
  let legends ← (v.liveComponents .legend).mapM fun e => v.legendFields above e.1 e.2
  let projections ← (v.liveComponents .projection).mapM fun e => projectionFields r v above e.2
  return {
    projections, axes, legends
    scales := (v.liveComponents .scale).map fun e => e.2.combine
    consulted := (v.liveComponents .projection).flatMap fun e =>
      r.fitConsultations (e.2.data.getD []) }

end View

namespace ViewTree

/-- The live components of views in order. -/
def componentLists (r : Registry) : List (Located View) → Except CompileError ComponentLists
  | [] => .ok .empty
  | l :: rest => do
    let here ← l.tree.label.componentLists r l.above
    return here.append (← componentLists r rest)

/-- The live size signals with their values. -/
def signals (config : Config) (settings : Settings) (t : ViewTree) : List SignalDef :=
  (t.walk []).flatMap fun l =>
    Dimension.all.filterMap fun d =>
      let v := l.tree.label
      if v.hasLiveSize l.above d then
        some ⟨v.partName d.name, defaultSize config settings d l.tree⟩
      else none

/-- The final name of a projection as seen from the view with an index. -/
def projectionSeenFrom (t : ViewTree) (index : Nat) (name : String) : String :=
  match (t.walk [])[index]? with
  | some l => l.tree.label.lookup l.above .projection name
  | none => name

/-- The document of a resolved tree over linked datasets, and the datasets after all that were
consulted for it are noted. -/
def assemble (config : Config) (settings : Settings) (r : Registry) (t : ViewTree) :
    Except CompileError (Document × Registry) := do
  let lists ← componentLists r (t.walk [])
  let marks := t.marks r []
  let r := r.note (lists.consulted ++ Mark.consultationsAll marks)
  return ({
    schema := settings.schemaUrl
    signals := t.signals config settings
    data := r.emit t.projectionSeenFrom
    projections := lists.projections
    scales := lists.scales
    axes := lists.axes
    legends := lists.legends
    marks }, r)

end ViewTree

end ChartLowering
