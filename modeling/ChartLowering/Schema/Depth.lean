import ChartLowering.Schema.TopLevel

/-
  How deeply a specification is nested.

  Only the parts that may hold any value count by their own depth. A definition that is shared by
  several kinds of views lies one deeper than its place: a view in a view, a channel in an encoding,
  and the data of a nested view. A specification deeper than `Json.depthLimit` has no normal form.
-/

namespace ChartLowering

def Fields.depth (fs : Fields) : Nat := Json.depthFields fs.entries

/-- The greatest of some depths. -/
def greatest (depths : List Nat) : Nat := depths.foldr max 0

def ChannelDef.depth (d : ChannelDef) : Nat :=
  greatest [(d.content.constant?.map Json.depth).getD 0, (d.scale.getD .empty).depth,
    d.axis.fields.depth, d.legend.fields.depth, d.extra.depth]

def MarkDef.depth (m : MarkDef) : Nat := m.extra.depth

def Encoded.depth : Encoded → Nat
  | .one d => d.depth
  | .many ds => greatest (ds.map ChannelDef.depth)

def FacetMapping.depth (m : FacetMapping) : Nat :=
  greatest ([m.row, m.column, m.facet].map fun d => (d.map ChannelDef.depth).getD 0) + 1

def ViewBase.depth (b : ViewBase) : Nat := (b.data.map DataSpec.depth).getD 0

def UnitSpec.depth (u : UnitSpec) : Nat :=
  greatest [u.mark.depth, greatest (u.encoding.values.map Encoded.depth) + 1,
    (u.projection.getD .empty).depth]

namespace ViewSpec

mutual

/-- The depth of a view that lies in a chart. -/
def depth : ViewSpec → Nat
  | .unit b u => max (b.depth + 1) u.depth + 1
  | .layer b children _ => max (b.depth + 1) (depthList children) + 1
  | .facet b m child _ => max (b.depth + 1) (max m.depth (depth child)) + 1
  | .concat b children _ _ => max (b.depth + 1) (depthList children) + 1

def depthList : List ViewSpec → Nat
  | [] => 0
  | v :: rest => max (depth v) (depthList rest)

end

/-- The depth of a view that stands alone. -/
def ownDepth : ViewSpec → Nat
  | .unit b u => max b.depth u.depth
  | v => v.depth

end ViewSpec

def Config.depth (c : Config) : Nat := greatest (Family.all.map fun f => (c.defaults f).depth)

def TopLevelSpec.depth (t : TopLevelSpec) : Nat :=
  greatest (t.view.depth :: t.config.depth ::
    t.datasets.values.flatMap fun rows => rows.map Fields.depth)

end ChartLowering
