import ChartLowering.Compile
import ChartLowering.Proofs.Json.Overlay

/-
  What a compile reads of a specification.

  The sketch of a part keeps what is read of it: properties with their keys sorted where the order
  does not count, modes in the order of the channels, and of data only whether there are any. Two
  specifications with one sketch are told apart by nothing but the order of keys, parts that nobody
  reads, and their data. Every function that the sketch does not change says so here.
-/

namespace ChartLowering

/-! ## Parts of specifications -/

def GuideSetting.sketch (p : Place) : GuideSetting → GuideSetting
  | .properties fs => .properties (fs.arranged p)
  | g => g

def ChannelDef.sketch (p : Place) (d : ChannelDef) : ChannelDef :=
  { d with
    scale := d.scale.map (Fields.arranged p)
    axis := d.axis.sketch p
    legend := d.legend.sketch p
    extra := .empty }

def Encoded.sketch (p : Place) : Encoded → Encoded
  | .one d => .one (d.sketch p)
  | .many _ => .many []

def UnitSpec.sketch (p : Place) (u : UnitSpec) : UnitSpec where
  mark := ⟨u.mark.type, .empty⟩
  encoding := u.encoding.mapValues (Encoded.sketch p)
  projection := u.projection.map (Fields.arranged p)

/-- Modes in the order of the channels. -/
def sortedModes (m : OrderedMap Channel ResolveMode) : OrderedMap Channel ResolveMode :=
  ⟨Channel.all.filterMap fun c => (m.get? c).map fun mode => (c, mode)⟩

def ResolveSpec.sketch (r : ResolveSpec) : ResolveSpec :=
  ⟨sortedModes r.scale, sortedModes r.axis, sortedModes r.legend⟩

/-- A definition of which only the field is known. -/
def ChannelDef.ofField (field : Option String) : ChannelDef :=
  ⟨match field with | some name => .field name | none => .absent, none, none, .unset, .unset, .empty⟩

def FacetMapping.sketch (m : FacetMapping) : FacetMapping where
  row := m.row.map fun d => .ofField d.field?
  column := m.column.map fun d => .ofField d.field?
  facet := m.facet.map fun d => .ofField d.field?

def ViewForm.sketch (p : Place) : ViewForm → ViewForm
  | .unit u => .unit (u.sketch p)
  | .layer r => .layer r.sketch
  | .facet m r => .facet m.sketch r.sketch
  | .concat r => .concat r.sketch

/-- Any data. -/
def DataSpec.blank : DataSpec := ⟨.name "", none⟩

def Component.sketch (p : Place) (k : Component) : Component :=
  { k with explicit := k.explicit.arranged p, specified := k.specified.arranged p }

def View.sketch (p : Place) (v : View) : View :=
  { v with
    form := v.form.sketch p
    ownData := v.ownData.map fun _ => .blank
    data := v.data.map fun _ => .blank
    components := v.components.mapValues (Component.sketch p) }

def Config.sketch (p : Place) (c : Config) : Config :=
  ⟨c.projection.arranged p, c.scale.arranged p, c.axis.arranged p, c.legend.arranged p, c.view⟩

variable {p : Place}

/-! ## Guides and channels -/

theorem GuideSetting.disables_sketch (g : GuideSetting) : (g.sketch p).disables = g.disables := by
  cases g <;> rfl

theorem GuideSetting.fields_sketch (g : GuideSetting) :
    (g.sketch p).fields = g.fields.arranged p := by
  cases g <;> rfl

theorem ChannelDef.content_eq {d e : ChannelDef} (h : d.sketch p = e.sketch p) :
    d.content = e.content :=
  (ChannelDef.mk.inj h).1

theorem ChannelDef.measure_eq {d e : ChannelDef} (h : d.sketch p = e.sketch p) :
    d.measure = e.measure :=
  (ChannelDef.mk.inj h).2.1

theorem Component.name_eq {k j : Component} (h : k.sketch p = j.sketch p) : k.name = j.name :=
  (Component.mk.inj h).1

theorem ChannelDef.guide_sketch (d : ChannelDef) (f : Family) :
    (d.sketch p).guide f = (d.guide f).sketch p := by
  cases f <;> rfl

theorem ChannelDef.field?_ofField (field : Option String) : (ofField field).field? = field := by
  cases field <;> rfl

namespace UnitSpec

variable (u : UnitSpec)

theorem channel?_sketch (c : Channel) :
    (u.sketch p).channel? c = (u.channel? c).map (ChannelDef.sketch p) := by
  unfold channel? sketch
  simp only
  rw [OrderedMap.get?_mapValues]
  cases u.encoding.get? c with
  | none => rfl
  | some e => cases e <;> rfl

theorem needsProjection_sketch : (u.sketch p).needsProjection = u.needsProjection := by
  unfold needsProjection
  simp only [channel?_sketch, Option.map_map]
  rfl

theorem coordinate_sketch (c : Channel) : (u.sketch p).coordinate c = u.coordinate c := by
  unfold coordinate
  rw [channel?_sketch]
  cases u.channel? c <;> rfl

theorem coordinatePairs_sketch : (u.sketch p).coordinatePairs = u.coordinatePairs := by
  unfold coordinatePairs
  simp only [coordinate_sketch]

theorem shapeField?_sketch : (u.sketch p).shapeField? = u.shapeField? := by
  unfold shapeField?
  rw [channel?_sketch]
  cases u.channel? .shape <;> rfl

theorem geometryRoles_sketch : (u.sketch p).geometryRoles = u.geometryRoles := by
  unfold geometryRoles
  rw [coordinatePairs_sketch, shapeField?_sketch]

end UnitSpec

/-! ## Composite views -/

theorem get?_sortedModes (m : OrderedMap Channel ResolveMode) (c : Channel) :
    (sortedModes m).get? c = m.get? c := by
  have hfind : ∀ l : List Channel, OrderedMap.find? c (l.filterMap fun d =>
      (m.get? d).map fun mode => (d, mode)) = if c ∈ l then m.get? c else none := by
    intro l
    induction l with
    | nil => rfl
    | cons d rest ih =>
      rw [List.filterMap_cons]
      by_cases hc : c = d
      · subst hc
        cases hm : m.get? c with
        | none => simp [ih, hm]
        | some mode => simp [OrderedMap.find?]
      · cases hm : m.get? d with
        | none => simp [ih, hc]
        | some mode => simp [OrderedMap.find?, ih, hc]
  exact (hfind Channel.all).trans (if_pos c.mem_all)

theorem ResolveSpec.mode?_sketch (r : ResolveSpec) (f : Family) (c : Channel) :
    r.sketch.mode? f c = r.mode? f c := by
  cases f with
  | projection => rfl
  | scale => exact get?_sortedModes r.scale c
  | axis => exact get?_sortedModes r.axis c
  | legend => exact get?_sortedModes r.legend c

theorem FacetMapping.fields_sketch (m : FacetMapping) : m.sketch.fields = m.fields := by
  have hfield : ∀ d : Option ChannelDef,
      (d.map fun d => ChannelDef.ofField d.field?).bind ChannelDef.field? =
        d.bind ChannelDef.field? := by
    intro d
    cases d with
    | none => rfl
    | some d => exact ChannelDef.field?_ofField d.field?
  unfold fields sketch
  simp only [List.filterMap_cons, List.filterMap_nil, hfield]

namespace ViewForm

theorem kind_sketch (form : ViewForm) : (form.sketch p).kind = form.kind := by
  cases form <;> rfl

theorem resolve_sketch (form : ViewForm) (f : Family) (c : Channel) :
    (form.sketch p).resolve.mode? f c = form.resolve.mode? f c := by
  cases form with
  | unit u => rfl
  | layer r => exact r.mode?_sketch f c
  | facet m r => exact r.mode?_sketch f c
  | concat r => exact r.mode?_sketch f c

end ViewForm

theorem Config.defaults_sketch (c : Config) (f : Family) :
    (c.sketch p).defaults f = (c.defaults f).arranged p := by
  cases f <;> rfl

/-! ## Views -/

namespace View

variable (v : View)

omit v in
theorem name_eq {v w : View} (h : v.sketch p = w.sketch p) : v.name = w.name := (View.mk.inj h).1

theorem kind_sketch : (v.sketch p).kind = v.kind := v.form.kind_sketch

theorem isSized_sketch : (v.sketch p).isSized = v.isSized := by
  unfold isSized
  rw [kind_sketch]

theorem component?_sketch (f : Family) (c : Option Channel) :
    (v.sketch p).component? f c = (v.component? f c).map (Component.sketch p) :=
  OrderedMap.get?_mapValues _ _ _

theorem liveComponent?_sketch (f : Family) (c : Option Channel) :
    (v.sketch p).liveComponent? f c = (v.liveComponent? f c).map (Component.sketch p) := by
  unfold liveComponent?
  rw [component?_sketch]
  cases v.component? f c with
  | none => rfl
  | some k =>
    simp only [Option.map_some, Option.filter_some]
    show (if k.isLive = true then some (k.sketch p) else none) = _
    split <;> rfl

theorem putComponent_sketch (f : Family) (c : Option Channel) (k : Component) :
    (v.putComponent f c k).sketch p = (v.sketch p).putComponent f c (k.sketch p) := by
  unfold putComponent sketch
  simp only [OrderedMap.mapValues_insert]

theorem lookup_sketch (above : List View) (kind : NameKind) (name : String) :
    (v.sketch p).lookup (above.map (sketch p)) kind name = v.lookup above kind name := by
  unfold lookup
  rw [List.map_cons, List.map_map, List.map_cons]
  rfl

theorem sizeSignal_sketch (above : List View) (d : Dimension) :
    (v.sketch p).sizeSignal (above.map (sketch p)) d = v.sizeSignal above d :=
  v.lookup_sketch above .signal (v.partName d.name)

theorem hasLiveSize_sketch (above : List View) (d : Dimension) :
    (v.sketch p).hasLiveSize (above.map (sketch p)) d = v.hasLiveSize above d := by
  unfold hasLiveSize
  rw [isSized_sketch, sizeSignal_sketch]
  rfl

/-- The live components of a sketched view are those of the view. -/
theorem liveComponents_sketch (f : Family) : (v.sketch p).liveComponents f =
    (v.liveComponents f).map fun e => (e.1, e.2.sketch p) := by
  unfold liveComponents sketch OrderedMap.mapValues
  rw [List.filterMap_map, List.map_filterMap]
  refine List.filterMap_congr fun e _ => ?_
  show (if e.1.family = f ∧ e.2.isLive = true then some (e.1.channel, e.2.sketch p) else none) = _
  split <;> rfl

end View

end ChartLowering
