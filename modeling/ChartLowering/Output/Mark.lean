import ChartLowering.Dataset.Views
import ChartLowering.ViewTree.Size

/-
  Marks of the runtime.

  A unit is drawn by one mark; layers add no mark of their own, every view of a concatenation is a
  group, and a facet is a group that is repeated. A mark reads the concrete dataset of its view; its
  properties come from the channels in the order of the encoding, so a later channel wins. Scale and
  projection names are looked up from the view, so they are the names after sharing.
-/

namespace ChartLowering

/-- What a mark property is set to. -/
inductive EntryContent where
  | field (name : String)
  | signal (expression : Json)
  | value (constant : Json)
deriving Repr, DecidableEq

/-- A mark property, and the scale that it goes through. -/
structure Entry where
  content : EntryContent
  scale : Option String
deriving Repr, DecidableEq

/-- The projection of shapes: through which projection, and from which field. -/
structure ShapeTransform where
  projection : Option String
  field : Option String
deriving Repr, DecidableEq

/-- The rows that a facet repeats its group over. -/
structure FacetRows where
  name : String
  data : String
  fields : List String
deriving Repr, DecidableEq

/-- A mark, or a group of marks. -/
inductive Mark where
  | item (name type : String) (data : Option String) (update : OrderedMap String Entry)
      (shape : Option ShapeTransform)
  | group (name : String) (facet : Option FacetRows) (size : Option (String × String))
      (marks : List Mark)
deriving Repr

namespace View

/-- The mark type of the runtime. Names that are not known are left as they are. -/
def runtimeMark : String → String
  | "geoshape" => "shape"
  | "point" | "circle" | "square" => "symbol"
  | "bar" | "tick" => "rect"
  | mark => mark

/-- Marks that are filled with their color; others are drawn with it. -/
def isFilled (mark : String) : Bool :=
  ["geoshape", "circle", "square", "bar", "rect", "area"].contains mark

/-- The marks that are drawn as symbols, which coordinates can place. -/
def isSymbol (mark : String) : Bool := ["point", "circle", "square"].contains mark

/-- The mark property that a channel sets, if it sets one. -/
def markProperty? (mark : String) : Channel → Option String
  | .color => some (if isFilled mark then "fill" else "stroke")
  | .x => some "x"
  | .y => some "y"
  | .x2 => some "x2"
  | .y2 => some "y2"
  | .fill => some "fill"
  | .stroke => some "stroke"
  | .shape => some "shape"
  | .size => some "size"
  | .opacity => some "opacity"
  | .fillOpacity => some "fillOpacity"
  | .strokeOpacity => some "strokeOpacity"
  | .text => some "text"
  | .tooltip => some "tooltip"
  | .href => some "href"
  | .description => some "description"
  | .longitude | .latitude | .longitude2 | .latitude2 | .detail | .order | .key => none

/-- The final name of the view's scale of a channel. -/
def scaleName? (v : View) (above : List View) (c : Channel) : Option String :=
  (v.component? .scale (some c)).map fun k => v.lookup above .scale k.name

/-- The final name of the view's projection. -/
def projectionName? (v : View) (above : List View) : Option String :=
  (v.component? .projection none).map fun k => v.lookup above .projection k.name

/-- What a channel sets a mark property to. A plain value goes through no scale. -/
def entry? (scale : Option String) (d : ChannelDef) : Option Entry :=
  match d.content with
  | .absent => none
  | .field name => some ⟨.field name, scale⟩
  | .datum j => some ⟨(match signalExpression? j with
      | some e => .signal e
      | none => .value j), scale⟩
  | .value j => match signalExpression? j with
    | some e => some ⟨.signal e, scale⟩
    | none => some ⟨.value j, none⟩

/-- The mark properties that the channels set, without those of skipped channels. -/
def update (v : View) (above : List View) (u : UnitSpec) (skip : List Channel) :
    OrderedMap String Entry :=
  u.encoding.entries.foldl (fun acc (c, e) =>
    match e, markProperty? u.mark.type c with
    | .one d, some property =>
      if c ∈ skip then acc
      else match entry? (v.scaleName? above c) d with
        | some entry => acc.insert property entry
        | none => acc
    | _, _ => acc) .empty

/-- The expression of a geometry field of a row. -/
def rowField (field : String) : String := "datum[\"" ++ field ++ "\"]"

/-- Positions that were projected take the place of those that the channels set. -/
def projectedPositions (v : View) (u : UnitSpec) (update : OrderedMap String Entry) :
    OrderedMap String Entry :=
  u.coordinatePairs.foldl (fun acc (suffix, _) =>
    (acc.insert ("x" ++ suffix) ⟨.field (v.partName ("x" ++ suffix)), none⟩).insert
      ("y" ++ suffix) ⟨.field (v.partName ("y" ++ suffix)), none⟩) update

/-- Circles and squares are symbols of that shape unless a channel sets another. -/
def symbolUpdate (v : View) (above : List View) (u : UnitSpec) : OrderedMap String Entry :=
  let update := v.update above u []
  let update := if (v.projectionName? above).isSome then v.projectedPositions u update else update
  if (u.mark.type == "circle" || u.mark.type == "square") && !update.contains "shape" then
    update.insert "shape" ⟨.value (.str u.mark.type), none⟩
  else update

/-- The mark of a unit, reading the given dataset. -/
def unitMark (v : View) (above : List View) (u : UnitSpec) (data : Option String) : Mark :=
  let name := v.partName "marks"
  let type := runtimeMark u.mark.type
  if u.mark.type == "geoshape" then
    .item name type data (v.update above u [.shape])
      (some ⟨v.projectionName? above, u.shapeField?.map rowField⟩)
  else if isSymbol u.mark.type then .item name type data (v.symbolUpdate above u) none
  else .item name type data (v.update above u []) none

/-- A view of a concatenation as a group. The group has a size if the view has one of its own. -/
def concatGroup (v : View) (above : List View) (marks : List Mark) : Mark :=
  let size := if Dimension.all.all (v.hasLiveSize above) then
      some (v.sizeSignal above .width, v.sizeSignal above .height) else none
  .group (v.partName "group") none size marks

/-- The rows of a facet, if there are any. -/
def facetRows? (v : View) (r : Registry) (m : FacetMapping) : Option FacetRows :=
  if r.backs v.mainOutput then
    some ⟨v.partName "facet", r.concreteName v.mainOutput, m.fields⟩
  else none

end View

namespace ViewTree

mutual

/-- The marks of a tree of views. -/
def marks (r : Registry) (above : List View) : ViewTree → List Mark
  | .node v kids =>
    match v.form with
    | .unit u => [v.unitMark above u (v.data.map fun _ => r.concreteName v.mainOutput)]
    | .layer _ => marksAll r (v :: above) kids
    | .concat _ => groups r (v :: above) kids
    | .facet m _ =>
      [.group (v.partName "cell") (v.facetRows? r m) none (marksAll r (v :: above) kids)]

def marksAll (r : Registry) (above : List View) : List ViewTree → List Mark
  | [] => []
  | t :: rest => marks r above t ++ marksAll r above rest

/-- One group for each tree. -/
def groups (r : Registry) (above : List View) : List ViewTree → List Mark
  | [] => []
  | t :: rest => t.label.concatGroup above (marks r above t) :: groups r above rest

end

end ViewTree

namespace Mark

mutual

/-- The datasets that a mark consults. -/
def consultations : Mark → List String
  | .item _ _ data _ _ => data.toList
  | .group _ facet _ marks => (facet.map FacetRows.data).toList ++ consultationsAll marks

def consultationsAll : List Mark → List String
  | [] => []
  | m :: rest => consultations m ++ consultationsAll rest

end

end Mark

end ChartLowering
