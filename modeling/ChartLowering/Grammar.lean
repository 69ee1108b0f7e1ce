/-
  The vocabulary of charts.

  Views compose in four ways; a unit view encodes data through channels; and each family of
  components (scales, axes, legends, projections) is shared or kept apart channel by channel. The
  lists of channels are ordered, and results follow their order.
-/

namespace ChartLowering

/-- How a view is composed. -/
inductive ViewKind where
  | unit
  | layer
  | facet
  | concat
deriving Repr, DecidableEq

def ViewKind.text : ViewKind → String
  | .unit => "unit"
  | .layer => "layer"
  | .facet => "facet"
  | .concat => "concat"

/-- A visual property that data can be encoded in. -/
inductive Channel where
  | x
  | y
  | x2
  | y2
  | longitude
  | latitude
  | longitude2
  | latitude2
  | color
  | fill
  | stroke
  | shape
  | size
  | opacity
  | fillOpacity
  | strokeOpacity
  | text
  | tooltip
  | detail
  | order
  | key
  | href
  | description
deriving Repr, DecidableEq

namespace Channel

/-- The key of a channel in an encoding. -/
def name : Channel → String
  | .x => "x"
  | .y => "y"
  | .x2 => "x2"
  | .y2 => "y2"
  | .longitude => "longitude"
  | .latitude => "latitude"
  | .longitude2 => "longitude2"
  | .latitude2 => "latitude2"
  | .color => "color"
  | .fill => "fill"
  | .stroke => "stroke"
  | .shape => "shape"
  | .size => "size"
  | .opacity => "opacity"
  | .fillOpacity => "fillOpacity"
  | .strokeOpacity => "strokeOpacity"
  | .text => "text"
  | .tooltip => "tooltip"
  | .detail => "detail"
  | .order => "order"
  | .key => "key"
  | .href => "href"
  | .description => "description"

def all : List Channel :=
  [.x, .y, .x2, .y2, .longitude, .latitude, .longitude2, .latitude2, .color, .fill, .stroke,
   .shape, .size, .opacity, .fillOpacity, .strokeOpacity, .text, .tooltip, .detail, .order, .key,
   .href, .description]

def ofName? (s : String) : Option Channel := all.find? fun c => c.name == s

/-- The channels that place a mark in the plane. -/
def isPositional (c : Channel) : Bool := c == .x || c == .y

/-- The pairs of geographic channels, longitude first: the primary pair and the secondary one,
each with the suffix of the position fields that it is projected to. -/
def geoPairs : List (String × Channel × Channel) :=
  [("", .longitude, .latitude), ("2", .longitude2, .latitude2)]

/-- The channels that have a scale. -/
def scaled : List Channel := [.x, .y, .color, .fill, .stroke, .shape, .size, .opacity]

/-- The channels that have an axis. -/
def withAxis : List Channel := [.x, .y]

/-- The channels that have a legend. -/
def withLegend : List Channel := [.color, .fill, .stroke, .shape, .size, .opacity]

/-- The property of a legend that refers to the scale of the channel. -/
def legendTarget : Channel → String
  | .color => "fill"
  | c => c.name

theorem mem_all (c : Channel) : c ∈ all := by cases c <;> decide

theorem ofName?_name (c : Channel) : ofName? c.name = some c := by cases c <;> decide

end Channel

/-- The kind of measurement that a field holds. -/
inductive Measure where
  | quantitative
  | temporal
  | ordinal
  | nominal
  | geojson
deriving Repr, DecidableEq

namespace Measure

def name : Measure → String
  | .quantitative => "quantitative"
  | .temporal => "temporal"
  | .ordinal => "ordinal"
  | .nominal => "nominal"
  | .geojson => "geojson"

def all : List Measure := [.quantitative, .temporal, .ordinal, .nominal, .geojson]

def ofName? (s : String) : Option Measure := all.find? fun m => m.name == s

/-- The scale type of a measurement. Geometry has no scale. -/
def scaleType? (positional : Bool) : Measure → Option String
  | .quantitative => some "linear"
  | .temporal => some "time"
  | .ordinal => some (if positional then "point" else "ordinal")
  | .nominal => some (if positional then "band" else "ordinal")
  | .geojson => none

end Measure

/-- A family of components that views share or keep apart. -/
inductive Family where
  | projection
  | scale
  | axis
  | legend
deriving Repr, DecidableEq

/-- Whether the children of a composite view share a component or each keep their own. -/
inductive ResolveMode where
  | shared
  | independent
deriving Repr, DecidableEq

namespace ResolveMode

def name : ResolveMode → String
  | .shared => "shared"
  | .independent => "independent"

def ofName? (s : String) : Option ResolveMode :=
  [shared, independent].find? fun m => m.name == s

end ResolveMode

/-- The kinds of name that are renamed when components are shared. -/
inductive NameKind where
  | signal
  | scale
  | projection
deriving Repr, DecidableEq

/-- The two dimensions of a view. -/
inductive Dimension where
  | width
  | height
deriving Repr, DecidableEq

namespace Dimension

def name : Dimension → String
  | .width => "width"
  | .height => "height"

def all : List Dimension := [.width, .height]

end Dimension

/-- The datasets that a view can ask for by name. -/
inductive OutputKind where
  | raw
  | main
deriving Repr, DecidableEq

def OutputKind.name : OutputKind → String
  | .raw => "raw"
  | .main => "main"

namespace Family

def name : Family → String
  | .projection => "projection"
  | .scale => "scale"
  | .axis => "axis"
  | .legend => "legend"

def all : List Family := [.projection, .scale, .axis, .legend]

/-- Composite views resolve scales first, since guides need them. -/
def resolutionOrder : List Family := [.scale, .axis, .legend, .projection]

/-- Axes and legends show a scale. -/
def isGuide : Family → Bool
  | .axis | .legend => true
  | .scale | .projection => false

/-- The names that a family's components are referred to by; guides are never referred to. -/
def nameKind? : Family → Option NameKind
  | .projection => some .projection
  | .scale => some .scale
  | .axis | .legend => none

/-- What a family has components for: channels, or the view as a whole. -/
def slots : Family → List (Option Channel)
  | .scale => Channel.scaled.map some
  | .axis => Channel.withAxis.map some
  | .legend => Channel.withLegend.map some
  | .projection => [none]

/-- The last part of the name of a component. -/
def suffix (f : Family) (c : Option Channel) : String :=
  let channel := (c.map Channel.name).getD ""
  match f with
  | .projection => "projection"
  | .scale => channel
  | .axis => channel ++ "_axis"
  | .legend => channel ++ "_legend"

/-- The properties that two components of a family are compared by. Any other property travels
with the component that is kept. -/
def properties : Family → List String
  | .projection =>
    ["type", "clipAngle", "clipExtent", "center", "rotate", "precision", "reflectX", "reflectY",
     "coefficient", "distance", "fraction", "lobes", "parallel", "parallels", "pointRadius",
     "radius", "ratio", "scale", "spacing", "tilt", "translate"]
  | .scale =>
    ["type", "domain", "domainMax", "domainMin", "domainMid", "range", "scheme", "reverse", "round",
     "clamp", "nice", "zero", "padding", "paddingInner", "paddingOuter", "exponent", "base",
     "constant", "interpolate"]
  | .axis =>
    ["orient", "title", "format", "formatType", "grid", "labels", "labelAngle", "tickCount",
     "ticks", "values", "offset", "domain"]
  | .legend =>
    ["type", "title", "format", "formatType", "orient", "direction", "columns", "symbolType",
     "values"]

end Family

end ChartLowering
