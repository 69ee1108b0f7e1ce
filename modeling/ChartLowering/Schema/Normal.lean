import ChartLowering.Schema.Depth

/-
  The normal form of a specification.

  A specification that was read is written out with every declared field, absent ones null and
  shorthand spelled out. What may hold any value is written plain. `given` tells which fields the
  author wrote.
-/

namespace ChartLowering

/-- Null for what is absent. -/
def Json.orNull {α : Type} (f : α → Json) : Option α → Json
  | some a => f a
  | none => .null

/-- Properties, null if there are none. -/
def plainOrNull (properties : Option Fields) : Json :=
  .orNull (fun fs => (Json.ofFields fs).plain) properties

def GuideSetting.toJson : GuideSetting → Json
  | .unset | .none => .null
  | .off => .bool false
  | .properties fs => (Json.ofFields fs).plain

namespace ChannelDef

def toJson (d : ChannelDef) : Json :=
  let datum := match d.content with
    | .datum j => j.plain
    | _ => .null
  let value := match d.content with
    | .value j => j.plain
    | _ => .null
  .obj ([("field", .orNull .str d.field?), ("datum", datum), ("value", value),
    ("type", .orNull (fun m => .str m.name) d.measure), ("scale", plainOrNull d.scale),
    ("axis", d.axis.toJson), ("legend", d.legend.toJson)] ++ Json.plainFields d.extra.entries)

end ChannelDef

def MarkDef.toJson (m : MarkDef) : Json :=
  .obj (("type", .str m.type) :: Json.plainFields m.extra.entries)

def Encoded.toJson : Encoded → Json
  | .one d => d.toJson
  | .many ds => .arr (ds.map ChannelDef.toJson)

/-- Modes by the names of their channels. -/
def modesJson (m : OrderedMap Channel ResolveMode) : Json :=
  .obj (m.entries.map fun e => (e.1.name, .str e.2.name))

def ResolveSpec.toJson (r : ResolveSpec) : Json :=
  .obj [("scale", modesJson r.scale), ("axis", modesJson r.axis), ("legend", modesJson r.legend)]

def FacetMapping.toJson (m : FacetMapping) : Json :=
  .obj [("row", .orNull ChannelDef.toJson m.row), ("column", .orNull ChannelDef.toJson m.column),
    ("facet", .orNull ChannelDef.toJson m.facet)]

def ViewBase.entries (b : ViewBase) : List (String × Json) :=
  [("name", .orNull .str b.name), ("data", .orNull DataSpec.toJson b.data),
    ("width", .orNull .float b.width), ("height", .orNull .float b.height)]

namespace ViewSpec

mutual

def toJson : ViewSpec → Json
  | .unit b u =>
    .obj (b.entries ++ [("mark", u.mark.toJson),
      ("encoding", .obj (u.encoding.entries.map fun e => (e.1.name, e.2.toJson))),
      ("projection", plainOrNull u.projection)])
  | .layer b children r =>
    .obj (b.entries ++ [("layer", .arr (toJsonList children)), ("resolve", r.toJson)])
  | .facet b m child r =>
    .obj (b.entries ++ [("facet", m.toJson), ("spec", toJson child), ("resolve", r.toJson)])
  | .concat b children d r =>
    .obj (b.entries ++ [("concat", .arr (toJsonList children)), ("direction", .str d.name),
      ("resolve", r.toJson)])

def toJsonList : List ViewSpec → List Json
  | [] => []
  | v :: rest => toJson v :: toJsonList rest

end

end ViewSpec

def ViewConfig.toJson (c : ViewConfig) : Json :=
  .obj [("continuous_width", .orNull .float c.continuousWidth),
    ("continuous_height", .orNull .float c.continuousHeight)]

def Config.toJson (c : Config) : Json :=
  .obj (Family.all.map (fun f => (f.name, (Json.ofFields (c.defaults f)).plain)) ++
    [("view", c.view.toJson)])

def TopLevelSpec.toJson (t : TopLevelSpec) : Json :=
  .obj [("view", t.view.toJson),
    ("datasets", .obj (t.datasets.entries.map fun e => (e.1, DataSpec.plainRows e.2))),
    ("config", t.config.toJson)]

namespace Schema

/-! ## The fields that the author wrote -/

/-- The declared keys that are present. -/
def given (declared : List String) (fs : Fields) : List String := declared.filter fs.contains

def givenMark : Json → List String
  | .obj fs => (OrderedMap.mk fs).keys
  | _ => ["type"]

def givenData : Json → List String
  | .obj fs => given dataKeys ⟨fs⟩
  | _ => ["values"]

/-- Each configured size under either of its keys. -/
def givenViewConfig (fs : Fields) : List String :=
  (if fs.contains "continuousWidth" || fs.contains "continuous_width"
    then ["continuous_width"] else []) ++
  (if fs.contains "continuousHeight" || fs.contains "continuous_height"
    then ["continuous_height"] else [])

def configKeys : List String := Family.all.map Family.name ++ ["view"]

def baseKeys : List String := ["name", "data", "width", "height"]

/-- The fields of a view of one kind. The direction of a concatenation counts as written where its
key stands for it. -/
def givenView (kind : ViewKind) (fs : Fields) : List String :=
  given baseKeys fs ++ match kind with
    | .unit => given ["mark", "encoding", "projection"] fs
    | .layer => given ["layer", "resolve"] fs
    | .facet => given ["facet", "spec", "resolve"] fs
    | .concat =>
      "concat" :: (if (concatKey fs).2.isSome then ["direction"] else given ["direction"] fs) ++
        given ["resolve"] fs

def givenTopLevel (fs : Fields) : List String := given topLevelKeys (topLevelFields fs)

end Schema

end ChartLowering
