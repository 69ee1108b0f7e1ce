import ChartLowering.Schema.Channel
import ChartLowering.Schema.Data

/-
  Views and how they are read.

  A view is a unit with one mark, or is composed of other views: layers over each other, a facet
  repeated over groups of rows, or a concatenation. The keys of an object decide which of these it
  is read as. Reading follows the nesting of the value: only the values under the keys that hold
  child views are read as views, and each only if its key is the one that counts.
-/

namespace ChartLowering

/-- A channel of a unit has one definition, or several (a tooltip of many fields). -/
inductive Encoded where
  | one (d : ChannelDef)
  | many (ds : List ChannelDef)
deriving Repr, DecidableEq

/-- A mark, its channels, and its projection properties. -/
structure UnitSpec where
  mark : MarkDef
  encoding : OrderedMap Channel Encoded
  projection : Option Fields
deriving Repr, DecidableEq

namespace UnitSpec

/-- The definition of a channel that has exactly one. -/
def channel? (u : UnitSpec) (c : Channel) : Option ChannelDef :=
  match u.encoding.get? c with
  | some (.one d) => some d
  | _ => none

/-- Whether the unit needs a projection: it draws shapes on a map, or a geographic channel has a
field or a datum. -/
def needsProjection (u : UnitSpec) : Bool :=
  u.mark.type == "geoshape" ||
    Channel.geoPairs.any fun (_, lon, lat) =>
      [lon, lat].any fun c => ((u.channel? c).map ChannelDef.isFieldOrDatum).getD false

end UnitSpec

/-- Which components a composite view shares, where it says so. -/
structure ResolveSpec where
  scale : OrderedMap Channel ResolveMode
  axis : OrderedMap Channel ResolveMode
  legend : OrderedMap Channel ResolveMode
deriving Repr, DecidableEq

namespace ResolveSpec

def silent : ResolveSpec := ⟨.empty, .empty, .empty⟩

/-- The mode given for a channel of a family; projections have none. -/
def mode? (r : ResolveSpec) (f : Family) (c : Channel) : Option ResolveMode :=
  match f with
  | .projection => none
  | .scale => r.scale.get? c
  | .axis => r.axis.get? c
  | .legend => r.legend.get? c

end ResolveSpec

/-- The fields that a facet groups rows by. -/
structure FacetMapping where
  row : Option ChannelDef
  column : Option ChannelDef
  facet : Option ChannelDef
deriving Repr, DecidableEq

def FacetMapping.fields (m : FacetMapping) : List String :=
  [m.row, m.column, m.facet].filterMap fun d => d.bind ChannelDef.field?

inductive Direction where
  | wrap
  | horizontal
  | vertical
deriving Repr, DecidableEq

namespace Direction

def name : Direction → String
  | .wrap => "wrap"
  | .horizontal => "horizontal"
  | .vertical => "vertical"

def ofName? (s : String) : Option Direction :=
  [wrap, horizontal, vertical].find? fun d => d.name == s

end Direction

/-- What every view may have: a name, data of its own, and a size. -/
structure ViewBase where
  name : Option String
  data : Option DataSpec
  width : Option Binary64
  height : Option Binary64
deriving Repr, DecidableEq

def ViewBase.size (b : ViewBase) : Dimension → Option Binary64
  | .width => b.width
  | .height => b.height

/-- A view. -/
inductive ViewSpec where
  | unit (base : ViewBase) (unit : UnitSpec)
  | layer (base : ViewBase) (children : List ViewSpec) (resolve : ResolveSpec)
  | facet (base : ViewBase) (mapping : FacetMapping) (child : ViewSpec) (resolve : ResolveSpec)
  | concat (base : ViewBase) (children : List ViewSpec) (direction : Direction)
      (resolve : ResolveSpec)
deriving Repr

namespace ViewSpec

def base : ViewSpec → ViewBase
  | .unit b _ => b
  | .layer b _ _ => b
  | .facet b _ _ _ => b
  | .concat b _ _ _ => b

def kind : ViewSpec → ViewKind
  | .unit .. => .unit
  | .layer .. => .layer
  | .facet .. => .facet
  | .concat .. => .concat

end ViewSpec

namespace Schema

/-! ## Parts of views -/

/-- A definition of a channel, or a list of definitions. -/
def readEncoded (j : Json) : Check Encoded :=
  .either "ChannelDef" "list" ((readChannel j).map .one) ((readList readChannel j).map .many)

/-- The keys as channels; the first unknown key is an error. -/
def channelEntries : List (String × Json) → Except SpecError (List (Channel × Json))
  | [] => .ok []
  | (k, j) :: rest =>
    match Channel.ofName? k with
    | some c => (channelEntries rest).map ((c, j) :: ·)
    | none => .error (.unknownChannel (.str k))

def readChannelEntries : List (Channel × Json) → Check (List (Channel × Encoded))
  | [] => .valid []
  | (c, j) :: rest =>
    (fun d l => (c, d) :: l) <$> (readEncoded j).underKey c.name <*> readChannelEntries rest

/-- An encoding. An unknown channel is reported before any definition is looked at. -/
def readEncoding : Reading (OrderedMap Channel Encoded)
  | .obj fs => match channelEntries fs with
    | .ok entries => (readChannelEntries entries).map OrderedMap.mk
    | .error cause => .fail (.refused cause)
  | _ => .fail .notAnObject

/-- The modes of a family by channel. A bad key is reported before a bad mode. -/
def readModes : List (String × Json) → Check (List (Channel × ResolveMode))
  | [] => .valid []
  | (k, j) :: rest =>
    let channel : Check Channel := match Channel.ofName? k with
      | some c => .valid c
      | none => .fail .unknownMember
    (fun c m l => (c, m) :: l) <$> (channel.underKey "[key]").underKey k <*>
      (readMember ResolveMode.ofName? j).underKey k <*> readModes rest

def readModeMap : Reading (OrderedMap Channel ResolveMode)
  | .obj fs => (readModes fs).map OrderedMap.mk
  | _ => .fail .notAnObject

def resolveKeys : List String := ["scale", "axis", "legend"]

def readResolveFields (fs : Fields) : Check ResolveSpec :=
  (fun scale axis legend () => ⟨scale, axis, legend⟩) <$>
    optionalField fs "scale" .empty readModeMap <*>
    optionalField fs "axis" .empty readModeMap <*>
    optionalField fs "legend" .empty readModeMap <*>
    noExtraKeys resolveKeys fs

def readResolve : Reading ResolveSpec := readRecord readResolveFields

def facetKeys : List String := ["row", "column", "facet"]

def readFacetFields (fs : Fields) : Check FacetMapping :=
  (fun row column facet () => ⟨row, column, facet⟩) <$>
    nullableField fs "row" readChannel <*>
    nullableField fs "column" readChannel <*>
    nullableField fs "facet" readChannel <*>
    noExtraKeys facetKeys fs

/-- A bare field definition is the definition of the one facet. -/
def facetFields (fs : Fields) : Fields :=
  if fs.contains "field" then ⟨[("facet", .ofFields fs)]⟩ else fs

def readFacetMapping : Reading FacetMapping := readRecord (readFacetFields ∘ facetFields)

/-- A size in numbers. Anything else is a size that the layout decides, and is left out here. -/
def readSize (j : Json) : Check (Option Binary64) :=
  match j.number? with
  | none => .valid none
  | some n => match n.toBinary64? with
    | some x => .valid (some x)
    | none => .fail .notANumber

def readBase (fs : Fields) : Check ViewBase :=
  ViewBase.mk <$>
    nullableField fs "name" readString <*>
    nullableField fs "data" readData <*>
    optionalField fs "width" none readSize <*>
    optionalField fs "height" none readSize

def readUnit (fs : Fields) : Check ViewSpec :=
  (fun base mark encoding projection => .unit base ⟨mark, encoding, projection⟩) <$>
    readBase fs <*>
    requiredField fs "mark" readMark <*>
    optionalField fs "encoding" .empty readEncoding <*>
    nullableField fs "projection" readObject

/-! ## Composite views -/

/-- What the value of a key is as a view and as a list of views. -/
structure Nested where
  one : Unit → Check ViewSpec
  many : Unit → Check (List ViewSpec)

/-- A required child view, or list of child views, under a key. -/
def requiredNested {α : Type} (kids : List (String × Nested)) (k : String)
    (read : Nested → Check α) : Check α :=
  match OrderedMap.find? k kids with
  | some n => read n
  | none => .fail .missing

def readLayer (kids : List (String × Nested)) (fs : Fields) : Check ViewSpec :=
  ViewSpec.layer <$>
    readBase fs <*>
    (requiredNested kids "layer" fun n => n.many ()).underKey "layer" <*>
    optionalField fs "resolve" .silent readResolve

def readFacet (kids : List (String × Nested)) (fs : Fields) : Check ViewSpec :=
  ViewSpec.facet <$>
    readBase fs <*>
    requiredField fs "facet" readFacetMapping <*>
    (requiredNested kids "spec" fun n => n.one ()).underKey "spec" <*>
    optionalField fs "resolve" .silent readResolve

/-- The key that holds the views of a concatenation, and the direction that the key stands for. -/
def concatKey (fs : Fields) : String × Option Direction :=
  if fs.contains "concat" then ("concat", none)
  else if fs.contains "hconcat" then ("hconcat", some .horizontal)
  else if fs.contains "vconcat" then ("vconcat", some .vertical)
  else ("concat", none)

def readDirection : Reading Direction
  | .str s => match Direction.ofName? s with
    | some d => .valid d
    | none => .fail .notTheLiteral
  | _ => .fail .notTheLiteral

def readConcat (kids : List (String × Nested)) (fs : Fields) : Check ViewSpec :=
  let (key, direction) := concatKey fs
  ViewSpec.concat <$>
    readBase fs <*>
    (requiredNested kids key fun n => n.many ()).underKey "concat" <*>
    (match direction with
      | some d => .valid d
      | none => optionalField fs "direction" .wrap readDirection) <*>
    optionalField fs "resolve" .silent readResolve

/-- The kind of view that the keys of an object decide on. -/
def viewKind? (fs : Fields) : Option ViewKind :=
  if fs.contains "mark" then some .unit
  else if fs.contains "layer" then some .layer
  else if fs.contains "facet" then some .facet
  else if fs.contains "concat" || fs.contains "hconcat" || fs.contains "vconcat" then some .concat
  else none

/-- The reading of an object as a view of a given kind. -/
def readKind (kind : ViewKind) (kids : List (String × Nested)) (fs : Fields) : Check ViewSpec :=
  match kind with
  | .unit => readUnit fs
  | .layer => readLayer kids fs
  | .facet => readFacet kids fs
  | .concat => readConcat kids fs

mutual

/-- A view of whichever kind its keys decide on; its issues are placed under the kind. -/
def readView : Json → Check ViewSpec
  | .obj fs =>
    let kids := nestedViews fs
    match viewKind? ⟨fs⟩ with
    | some kind => (readKind kind kids ⟨fs⟩).underKey kind.text
    | none => .fail .noView
  | _ => .fail .noView

def readViews : Json → Check (List ViewSpec)
  | .arr items => readViewItems 0 items
  | _ => .fail .notAList

def readViewItems (i : Nat) : List Json → Check (List ViewSpec)
  | [] => .valid []
  | j :: rest => List.cons <$> (readView j).under (.index i) <*> readViewItems (i + 1) rest

/-- What each field would be as a child view; nothing is read before it is asked for. -/
def nestedViews : List (String × Json) → List (String × Nested)
  | [] => []
  | (k, j) :: rest => (k, ⟨fun _ => readView j, fun _ => readViews j⟩) :: nestedViews rest

end

theorem nestedViews_find? (fs : List (String × Json)) (k : String) :
    OrderedMap.find? k (nestedViews fs) =
      (OrderedMap.find? k fs).map fun j => ⟨fun _ => readView j, fun _ => readViews j⟩ := by
  induction fs with
  | nil => rfl
  | cons f rest ih =>
    rw [nestedViews, OrderedMap.find?, OrderedMap.find?]
    split
    · rfl
    · exact ih

/-- The reading of a value as a view of one given kind. -/
def readViewAs (kind : ViewKind) : Reading ViewSpec :=
  readRecord fun fs => readKind kind (nestedViews fs.entries) fs

end Schema

end ChartLowering
