import ChartLowering.Flow.Geometry
import ChartLowering.ViewTree.Size

/-
  The components of a unit.

  A scale stands for every scaled channel with a field or a datum, and guides for the scales that
  have not switched them off. What the chart configures lies beneath what the channel sets. A
  projection is fit to its data unless a scale or a translation is set for it; it is then fit to the
  unit's geometry signals, or to the unit's rows if it has no geometry of its own.
-/

namespace ChartLowering

namespace View

/-- Configured properties with given ones over them. -/
def explicitFields (config : Config) (f : Family) (given : Fields) : Fields :=
  (config.defaults f).overlay given

/-- The generated name of a component of the view. -/
def componentName (v : View) (f : Family) (c : Option Channel) : String := v.partName (f.suffix c)

/-- The properties of a scale that follow from the channel. -/
def scaleDefaults (c : Channel) (d : ChannelDef) : Fields :=
  ⟨(match d.measure.bind (Measure.scaleType? c.isPositional) with
      | some type => [("type", Json.str type)]
      | none => []) ++
    (match c with
      | .x => [("range", .str "width")]
      | .y => [("range", .str "height")]
      | _ => [])⟩

/-- The scale of a channel, if the channel has one. -/
def unitScale? (config : Config) (v : View) (u : UnitSpec) (c : Channel) : Option Component :=
  match u.channel? c with
  | none => none
  | some d =>
    if d.isFieldOrDatum && d.measure != some .geojson then
      some (.define (v.componentName .scale (some c))
        (explicitFields config .scale (d.scale.getD .empty)) (scaleDefaults c d) none none)
    else none

def addScale (config : Config) (u : UnitSpec) (v : View) (c : Channel) : View :=
  match unitScale? config v u c with
  | some k => (v.putComponent .scale (some c) k).seed .scale k.name
  | none => v

/-- The side of the view that an axis stands at. -/
def axisOrient (c : Channel) : String := if c == .x then "bottom" else "left"

/-- The properties of a guide that follow from its channel and its scale. -/
def guideDefaults (f : Family) (c : Channel) (scale : String) : Fields :=
  ⟨[("scale", Json.str scale)] ++
    (if f = .axis then [("orient", .str (axisOrient c))] else [])⟩

/-- The guide of a channel, if the channel has one. A legend needs a field. -/
def unitGuide? (config : Config) (v : View) (u : UnitSpec) (f : Family) (c : Channel) :
    Option Component :=
  match u.channel? c, v.component? .scale (some c) with
  | some d, some scale =>
    if (d.guide f).disables || (f == .legend && !d.hasField) then none
    else some (.define (v.componentName f (some c))
      (explicitFields config f (d.guide f).fields) (guideDefaults f c scale.name) none none)
  | _, _ => none

def addGuide (config : Config) (u : UnitSpec) (f : Family) (v : View) (c : Channel) : View :=
  match unitGuide? config v u f c with
  | some k => v.putComponent f (some c) k
  | none => v

/-- What the projection of a unit is fit to: its geometry signals, or its rows. -/
def fitSources (v : View) (u : UnitSpec) : List FitSource :=
  match u.geometryRoles with
  | [] => [.output (v.partName OutputKind.main.name)]
  | roles => roles.zipIdx.map fun (_, i) => .signal (v.partName (geometrySuffix i)) .empty

/-- Setting a scale or a translation places a projection by hand. -/
def isPlaced (explicit : Fields) : Bool :=
  explicit.contains "scale" || explicit.contains "translate"

/-- The projection of a unit, if it needs one or sets its properties. -/
def unitProjection? (config : Config) (settings : Settings) (above : List View) (v : View)
    (u : UnitSpec) : Option Component :=
  if u.projection.isNone && !u.needsProjection then none
  else
    let explicit := explicitFields config .projection (u.projection.getD .empty)
    let size := Dimension.all.map fun d => Json.signalRef (v.sizeSignal above d)
    let fit := !isPlaced explicit
    some (.define (v.componentName .projection none) explicit
      ⟨[("type", settings.defaultProjectionType)]⟩
      (if fit then some size else none) (if fit then some (v.fitSources u) else none))

def addProjection (config : Config) (settings : Settings) (above : List View) (u : UnitSpec)
    (v : View) : View :=
  match unitProjection? config settings above v u with
  | some k => (v.putComponent .projection none k).seed .projection k.name
  | none => v

/-- A unit with its components: scales, then guides, then the projection. -/
def resolveUnit (config : Config) (settings : Settings) (above : List View) (u : UnitSpec)
    (v : View) : View :=
  let v := Channel.scaled.foldl (addScale config u) v
  let v := Channel.withAxis.foldl (addGuide config u .axis) v
  let v := Channel.withLegend.foldl (addGuide config u .legend) v
  addProjection config settings above u v

end View

end ChartLowering
