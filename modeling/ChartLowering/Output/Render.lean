import ChartLowering.Output.Document

/-
  Documents as values.

  The groups of a document are written under fixed keys. Signals, scales, axes and legends are left
  out where there are none; data, projections and marks are always written.
-/

namespace ChartLowering

def Entry.toJson (e : Entry) : Json :=
  let content := match e.content with
    | .field name => ("field", Json.str name)
    | .signal expression => ("signal", expression)
    | .value constant => ("value", constant)
  .obj (content :: (e.scale.map fun s => ("scale", Json.str s)).toList)

def ShapeTransform.toJson (t : ShapeTransform) : Json :=
  .obj ([("type", .str "geoshape"), ("projection", .orNull .str t.projection)] ++
    (t.field.map fun f => ("field", Json.str f)).toList)

def FacetRows.toJson (f : FacetRows) : Json :=
  .obj [("facet", .obj [("name", .str f.name), ("data", .str f.data),
    ("groupby", .strings f.fields)])]

/-- Properties that are set whenever a mark is drawn. -/
def encodeUpdate (entries : List (String × Json)) : Json :=
  .obj [("update", .obj entries)]

def groupSize (width height : String) : Json :=
  encodeUpdate [("width", Json.signalRef width), ("height", Json.signalRef height)]

namespace Mark

mutual

def toJson : Mark → Json
  | .item name type data update shape =>
    .obj ([("name", .str name), ("type", .str type)] ++
      (data.map fun d => ("from", Json.obj [("data", .str d)])).toList ++
      [("encode", encodeUpdate (update.entries.map fun e => (e.1, e.2.toJson)))] ++
      (shape.map fun t => ("transform", Json.arr [t.toJson])).toList)
  | .group name facet size marks =>
    .obj ([("type", .str "group"), ("name", .str name)] ++
      (facet.map fun f => ("from", f.toJson)).toList ++
      (size.map fun s => ("encode", groupSize s.1 s.2)).toList ++
      [("marks", .arr (toJsonAll marks))])

def toJsonAll : List Mark → List Json
  | [] => []
  | m :: rest => toJson m :: toJsonAll rest

end

end Mark

def SignalDef.toJson (s : SignalDef) : Json := .obj [("name", .str s.name), ("value", s.value)]

def DatasetDef.toJson : DatasetDef → Json
  | .root dataset => dataset
  | .derived name source transforms =>
    .obj [("name", .str name), ("source", .str source), ("transform", .arr transforms)]

/-- A key with its list, unless the list is empty. -/
def unlessEmpty (k : String) (items : List Json) : List (String × Json) :=
  if items.isEmpty then [] else [(k, .arr items)]

def Document.toJson (d : Document) : Json :=
  .obj ([("$schema", d.schema)] ++
    unlessEmpty "signals" (d.signals.map SignalDef.toJson) ++
    [("data", .arr (d.data.map DatasetDef.toJson)),
     ("projections", .arr (d.projections.map .ofFields))] ++
    unlessEmpty "scales" (d.scales.map .ofFields) ++
    unlessEmpty "axes" (d.axes.map .ofFields) ++
    unlessEmpty "legends" (d.legends.map .ofFields) ++
    [("marks", .arr (Mark.toJsonAll d.marks))])

end ChartLowering
