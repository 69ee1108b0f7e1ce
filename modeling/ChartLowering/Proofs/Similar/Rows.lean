import ChartLowering.Proofs.Dataset.OwnData
import ChartLowering.Proofs.Output.FitSources
import ChartLowering.Proofs.Similar.Documents

/-
  Charts and their rows.

  A chart does not depend on its rows. Rows decide which definitions of data are the same, and so
  which views share a root dataset; and they decide whether data are nested too deeply, in which case
  there is no document at all (`compile_shallowRow`). Nothing else of a compile reads them: if two
  specifications differ in nothing but rows, and in both the same pairs of inline definitions are the
  same, then they are compiled to documents that differ in nothing but the rows of root datasets, or
  fail with the same error, as soon as both or none of them fail for the depth of their data
  (`compile_withoutRows`).

  Where the same definitions are nested too deeply in both, the runs go in step
  (`compile_withoutRows_of_sameDepth`). Where they are not, a reference that is not declared may still
  end both compiles before they come to such data, and references do not depend on rows
  (`firstUndeclared?_withoutRows`).
-/

namespace ChartLowering

/-! ## Leaving rows out -/

def DataOrigin.withoutRows : DataOrigin → DataOrigin
  | .values _ => .values []
  | origin => origin

namespace DataSpec

def withoutRows (d : DataSpec) : DataSpec := { d with origin := d.origin.withoutRows }

/-- Whether the rows are given with the definition. -/
def isInline (d : DataSpec) : Bool :=
  match d.origin with
  | .values _ => true
  | _ => false

end DataSpec

def ViewBase.withoutRows (b : ViewBase) : ViewBase :=
  { b with data := b.data.map DataSpec.withoutRows }

namespace ViewSpec

mutual

def withoutRows : ViewSpec → ViewSpec
  | .unit b u => .unit b.withoutRows u
  | .layer b kids r => .layer b.withoutRows (withoutRowsAll kids) r
  | .facet b m kid r => .facet b.withoutRows m (withoutRows kid) r
  | .concat b kids d r => .concat b.withoutRows (withoutRowsAll kids) d r

def withoutRowsAll : List ViewSpec → List ViewSpec
  | [] => []
  | v :: rest => withoutRows v :: withoutRowsAll rest

end

mutual

/-- The definitions of data in the order of the views. -/
def data : ViewSpec → List DataSpec
  | .unit b _ => b.data.toList
  | .layer b kids _ => b.data.toList ++ dataAll kids
  | .facet b _ kid _ => b.data.toList ++ data kid
  | .concat b kids _ _ => b.data.toList ++ dataAll kids

def dataAll : List ViewSpec → List DataSpec
  | [] => []
  | v :: rest => data v ++ dataAll rest

end

end ViewSpec

namespace TopLevelSpec

/-- The specification without the rows of its inline data and of its datasets. -/
def withoutRows (t : TopLevelSpec) : TopLevelSpec :=
  { t with view := t.view.withoutRows, datasets := t.datasets.mapValues fun _ => [] }

/-- Two specifications that differ in rows only, and in which the same inline definitions are the
same. -/
structure DiffersInRows (t t' : TopLevelSpec) : Prop where
  rest : t.withoutRows = t'.withoutRows
  pattern : ∀ x ∈ t.view.data.zip t'.view.data, ∀ y ∈ t.view.data.zip t'.view.data,
    x.1.isInline = true → y.1.isInline = true →
      (x.1.toJson.sorted = y.1.toJson.sorted ↔ x.2.toJson.sorted = y.2.toJson.sorted)

/-- Whether the same inline definitions of two specifications are nested too deeply. -/
def SameDepth (t t' : TopLevelSpec) : Prop :=
  ∀ x ∈ t.view.data.zip t'.view.data, x.1.isInline = true → x.1.isTooDeep = x.2.isTooDeep

/-- The definitions that are fingerprinted in a compile. -/
def hashedData (settings : Settings) (t : TopLevelSpec) : List Json :=
  ((t.lookedUp settings).filter fun d => d.name?.isNone).map DataSpec.toJson

end TopLevelSpec

/-- An object with null in the place of one field. -/
def Json.blankField (k : String) : Json → Json
  | .obj fields => .obj (fields.map fun e => if e.1 = k then (k, .null) else e)
  | j => j

/-- A dataset with null in the place of its rows. -/
def DatasetDef.withoutRows : DatasetDef → DatasetDef
  | .root dataset => .root (dataset.blankField "values")
  | d => d

/-- The document without the rows of its root datasets. -/
def Document.withoutRows (d : Document) : Document := { d with data := d.data.map .withoutRows }

/-! ## Definitions that differ in rows -/

namespace DataSpec

variable {d e : DataSpec}

theorem isInline_eq (h : d.withoutRows = e.withoutRows) : d.isInline = e.isInline := by
  have horigin : d.origin.withoutRows = e.origin.withoutRows := (DataSpec.mk.inj h).1
  unfold isInline
  generalize d.origin = o, e.origin = o' at horigin
  cases o <;> cases o' <;> first | rfl | cases horigin

/-- Definitions without rows of their own do not differ. -/
theorem eq_of_withoutRows_eq (h : d.withoutRows = e.withoutRows) (hd : d.isInline = false) :
    d = e := by
  have he := (isInline_eq h).symm.trans hd
  have hkept : ∀ f : DataSpec, f.isInline = false → f.withoutRows = f := by
    rintro ⟨origin, format⟩ hf
    cases origin with
    | values rows => cases hf
    | url address | name n => rfl
  rw [← hkept d hd, h, hkept e he]

theorem name?_withoutRows (d : DataSpec) : d.withoutRows.name? = d.name? := by
  obtain ⟨origin, format⟩ := d
  cases origin <;> rfl

theorem name?_eq_of_withoutRows (h : d.withoutRows = e.withoutRows) : d.name? = e.name? := by
  rw [← name?_withoutRows, h, name?_withoutRows]

/-- Inline definitions are written with rows, and no others are. -/
theorem toJson_values (d : DataSpec) :
    ∃ values, d.toJson.field? "values" = some values ∧ (d.isInline = true ↔ values ≠ .null) := by
  obtain ⟨origin, format⟩ := d
  cases origin with
  | values rows => exact ⟨plainRows rows, rfl, fun _ => nofun, fun _ => rfl⟩
  | url address | name n => exact ⟨.null, rfl, nofun, fun h => absurd rfl h⟩

/-- Definitions that are written alike both have rows, or neither has. -/
theorem isInline_iff_of_sorted_eq (h : d.toJson.sorted = e.toJson.sorted) :
    d.isInline = true ↔ e.isInline = true := by
  have hnull : ∀ j : Json, j.sorted = .null ↔ j = .null := by
    intro j
    cases j <;> simp [Json.sorted]
  obtain ⟨a, ha, hda⟩ := d.toJson_values
  obtain ⟨b, hb, heb⟩ := e.toJson_values
  have hvalues := Json.map_sorted_field?_eq h "values"
  rw [ha, hb, Option.map_some, Option.map_some, Option.some.injEq] at hvalues
  rw [hda, heb, Ne, Ne, ← hnull a, ← hnull b, hvalues]

end DataSpec

/-! ## Views that differ in rows -/

section Views

variable {P : DataSpec → DataSpec → Prop} {p : Place}

theorem ViewBase.length_data_eq {b c : ViewBase} (h : b.withoutRows = c.withoutRows) :
    b.data.toList.length = c.data.toList.length := by
  have hdata : b.data.map DataSpec.withoutRows = c.data.map DataSpec.withoutRows :=
    (ViewBase.mk.inj h).2.1
  have hlength := congrArg (fun d => d.toList.length) hdata
  simpa only [Option.toList_map, List.length_map] using hlength

theorem ViewBase.alike_of_withoutRows {b c : ViewBase} (h : b.withoutRows = c.withoutRows)
    (hP : ∀ x ∈ b.data.toList.zip c.data.toList, P x.1 x.2) :
    b.Alike (fun d e => d.withoutRows = e.withoutRows ∧ P d e) c := by
  obtain ⟨hname, hdata, hwidth, hheight⟩ := ViewBase.mk.inj h
  refine ⟨hname, hwidth, hheight, ?_⟩
  rcases cases_of_map_eq_map hdata with ⟨hb, hc⟩ | ⟨d, e, hb, hc, hde⟩
  · rw [hb, hc]
    exact .none
  · rw [hb, hc] at hP ⊢
    exact .some ⟨hde, hP (d, e) List.mem_cons_self⟩

namespace ViewSpec

mutual

theorem bases_withoutRows : ∀ v : ViewSpec, v.withoutRows.bases = v.bases.map ViewBase.withoutRows
  | .unit b u => rfl
  | .layer b kids r => by
    rw [withoutRows, bases, bases, List.map_cons, basesAll_withoutRows kids]
  | .facet b m kid r => by
    rw [withoutRows, bases, bases, List.map_cons, bases_withoutRows kid]
  | .concat b kids d r => by
    rw [withoutRows, bases, bases, List.map_cons, basesAll_withoutRows kids]

theorem basesAll_withoutRows : ∀ vs : List ViewSpec,
    basesAll (withoutRowsAll vs) = (basesAll vs).map ViewBase.withoutRows
  | [] => rfl
  | v :: rest => by
    rw [withoutRowsAll, basesAll, basesAll, List.map_append, bases_withoutRows v,
      basesAll_withoutRows rest]

end

mutual

theorem data_eq_flatMap : ∀ v : ViewSpec, v.data = v.bases.flatMap fun b => b.data.toList
  | .unit b u => by rw [data, bases, List.flatMap_singleton]
  | .layer b kids r => by rw [data, bases, List.flatMap_cons, dataAll_eq_flatMap kids]
  | .facet b m kid r => by rw [data, bases, List.flatMap_cons, data_eq_flatMap kid]
  | .concat b kids d r => by rw [data, bases, List.flatMap_cons, dataAll_eq_flatMap kids]

theorem dataAll_eq_flatMap : ∀ vs : List ViewSpec,
    dataAll vs = (basesAll vs).flatMap fun b => b.data.toList
  | [] => rfl
  | v :: rest => by
    rw [dataAll, basesAll, List.flatMap_append, data_eq_flatMap v, dataAll_eq_flatMap rest]

end

theorem mem_data {v : ViewSpec} {d : DataSpec} :
    d ∈ v.data ↔ ∃ b ∈ v.bases, b.data = some d := by
  simp only [data_eq_flatMap, List.mem_flatMap, Option.mem_toList]

/-- What two views that differ in rows only have in common, part by part. -/
inductive SameParts : ViewSpec → ViewSpec → Prop where
  | unit {b c : ViewBase} (u : UnitSpec) (base : b.withoutRows = c.withoutRows) :
    SameParts (.unit b u) (.unit c u)
  | layer {b c : ViewBase} {kids others : List ViewSpec} (r : ResolveSpec)
      (base : b.withoutRows = c.withoutRows) (children : withoutRowsAll kids = withoutRowsAll others) :
    SameParts (.layer b kids r) (.layer c others r)
  | facet {b c : ViewBase} (m : FacetMapping) {kid other : ViewSpec} (r : ResolveSpec)
      (base : b.withoutRows = c.withoutRows) (child : kid.withoutRows = other.withoutRows) :
    SameParts (.facet b m kid r) (.facet c m other r)
  | concat {b c : ViewBase} {kids others : List ViewSpec} (d : Direction) (r : ResolveSpec)
      (base : b.withoutRows = c.withoutRows) (children : withoutRowsAll kids = withoutRowsAll others) :
    SameParts (.concat b kids d r) (.concat c others d r)

theorem sameParts_of_withoutRows {v w : ViewSpec} (h : v.withoutRows = w.withoutRows) :
    SameParts v w := by
  cases v <;> cases w <;> simp only [withoutRows, reduceCtorEq] at h
  case unit.unit =>
    obtain ⟨hbase, rfl⟩ := unit.inj h
    exact .unit _ hbase
  case layer.layer =>
    obtain ⟨hbase, hkids, rfl⟩ := layer.inj h
    exact .layer _ hbase hkids
  case facet.facet =>
    obtain ⟨hbase, rfl, hkid, rfl⟩ := facet.inj h
    exact .facet _ _ hbase hkid
  case concat.concat =>
    obtain ⟨hbase, hkids, rfl, rfl⟩ := concat.inj h
    exact .concat _ _ hbase hkids

mutual

theorem length_data_eq : ∀ {v w : ViewSpec}, v.withoutRows = w.withoutRows →
    v.data.length = w.data.length
  | .unit b u, w, h => by
    cases sameParts_of_withoutRows h with
    | unit _ hbase => exact ViewBase.length_data_eq hbase
  | .layer b kids r, w, h => by
    cases sameParts_of_withoutRows h with
    | layer _ hbase hkids =>
      rw [data, data, List.length_append, List.length_append, ViewBase.length_data_eq hbase,
        length_dataAll_eq hkids]
  | .facet b m kid r, w, h => by
    cases sameParts_of_withoutRows h with
    | facet _ _ hbase hkid =>
      rw [data, data, List.length_append, List.length_append, ViewBase.length_data_eq hbase,
        length_data_eq hkid]
  | .concat b kids d r, w, h => by
    cases sameParts_of_withoutRows h with
    | concat _ _ hbase hkids =>
      rw [data, data, List.length_append, List.length_append, ViewBase.length_data_eq hbase,
        length_dataAll_eq hkids]

theorem length_dataAll_eq : ∀ {vs ws : List ViewSpec}, withoutRowsAll vs = withoutRowsAll ws →
    (dataAll vs).length = (dataAll ws).length
  | [], [], _ => rfl
  | [], w :: others, h => nomatch h
  | v :: rest, [], h => nomatch h
  | v :: rest, w :: others, h => by
    obtain ⟨hhead, htail⟩ := List.cons.inj h
    rw [dataAll, dataAll, List.length_append, List.length_append, length_data_eq hhead,
      length_dataAll_eq htail]

end

mutual

/-- Views that differ in rows only are alike, whatever relates their data place by place. -/
theorem alike_of_withoutRows : ∀ {v w : ViewSpec}, v.withoutRows = w.withoutRows →
    (∀ x ∈ v.data.zip w.data, P x.1 x.2) →
      v.Alike p (fun d e => d.withoutRows = e.withoutRows ∧ P d e) w
  | .unit b u, w, h, hP => by
    cases sameParts_of_withoutRows h with
    | unit _ hbase => exact .unit (ViewBase.alike_of_withoutRows hbase hP) rfl
  | .layer b kids r, w, h, hP => by
    cases sameParts_of_withoutRows h with
    | layer _ hbase hkids =>
      rw [data, data, List.zip_append (ViewBase.length_data_eq hbase), List.forall_mem_append] at hP
      exact .layer (ViewBase.alike_of_withoutRows hbase hP.1) (alikeAll_of_withoutRows hkids hP.2)
        rfl
  | .facet b m kid r, w, h, hP => by
    cases sameParts_of_withoutRows h with
    | facet _ _ hbase hkid =>
      rw [data, data, List.zip_append (ViewBase.length_data_eq hbase), List.forall_mem_append] at hP
      exact .facet (ViewBase.alike_of_withoutRows hbase hP.1) rfl
        (alike_of_withoutRows hkid hP.2) rfl
  | .concat b kids d r, w, h, hP => by
    cases sameParts_of_withoutRows h with
    | concat _ _ hbase hkids =>
      rw [data, data, List.zip_append (ViewBase.length_data_eq hbase), List.forall_mem_append] at hP
      exact .concat (ViewBase.alike_of_withoutRows hbase hP.1) (alikeAll_of_withoutRows hkids hP.2)
        rfl

theorem alikeAll_of_withoutRows : ∀ {vs ws : List ViewSpec},
    withoutRowsAll vs = withoutRowsAll ws → (∀ x ∈ (dataAll vs).zip (dataAll ws), P x.1 x.2) →
      AlikeAll p (fun d e => d.withoutRows = e.withoutRows ∧ P d e) vs ws
  | [], [], _, _ => .nil
  | [], w :: others, h, _ => nomatch h
  | v :: rest, [], h, _ => nomatch h
  | v :: rest, w :: others, h, hP => by
    obtain ⟨hhead, htail⟩ := List.cons.inj h
    rw [dataAll, dataAll, List.zip_append (length_data_eq hhead), List.forall_mem_append] at hP
    exact .cons (alike_of_withoutRows hhead hP.1) (alikeAll_of_withoutRows htail hP.2)

end

end ViewSpec

end Views

/-! ## Charts that differ in rows -/

namespace TopLevelSpec

open Registry

variable {settings : Settings} {t t' : TopLevelSpec}

/-- Definitions at one place of two specifications that differ in rows only. -/
def SamePlace (t t' : TopLevelSpec) (d e : DataSpec) : Prop :=
  d.withoutRows = e.withoutRows ∧ (d, e) ∈ t.view.data.zip t'.view.data

/-- The keys that definitions at one place are found by in the two compiles. -/
def SameKey (settings : Settings) (t t' : TopLevelSpec) (k k' : SourceKey) : Prop :=
  ∃ d e, SamePlace t t' d e ∧ (d.name? = none → d ∈ t.lookedUp settings ∧ e ∈ t'.lookedUp settings) ∧
    k = sourceKey d ∧ k' = sourceKey e

theorem DiffersInRows.sorted_iff (h : t.DiffersInRows t') {d e f g : DataSpec}
    (hd : SamePlace t t' d e) (hf : SamePlace t t' f g) :
    d.toJson.sorted = f.toJson.sorted ↔ e.toJson.sorted = g.toJson.sorted := by
  have hde := DataSpec.isInline_eq hd.1
  have hfg := DataSpec.isInline_eq hf.1
  by_cases hboth : d.isInline = f.isInline
  · cases hinline : d.isInline with
    | true => exact h.pattern _ hd.2 _ hf.2 hinline (hboth.symm.trans hinline)
    | false =>
      rw [DataSpec.eq_of_withoutRows_eq hd.1 hinline,
        DataSpec.eq_of_withoutRows_eq hf.1 (hboth.symm.trans hinline)]
  · -- only one of the two is written with rows, in both specifications
    constructor
    · intro hsorted
      exact absurd (Bool.eq_iff_iff.2 (DataSpec.isInline_iff_of_sorted_eq hsorted)) hboth
    · intro hsorted
      rw [hde, hfg] at hboth
      exact absurd (Bool.eq_iff_iff.2 (DataSpec.isInline_iff_of_sorted_eq hsorted)) hboth

theorem mem_hashedData {d : DataSpec} (hd : d ∈ t.lookedUp settings) (hname : d.name? = none) :
    d.toJson ∈ t.hashedData settings :=
  List.mem_map_of_mem (List.mem_filter.2 ⟨hd, by rw [hname]; rfl⟩)

/-- A key is met again in the one compile when the corresponding key is in the other. -/
theorem DiffersInRows.key_eq_iff (h : t.DiffersInRows t')
    (hfree : Json.CollisionFree (t.hashedData settings))
    (hfree' : Json.CollisionFree (t'.hashedData settings)) {k k' l l' : SourceKey}
    (hk : SameKey settings t t' k k') (hl : SameKey settings t t' l l') : k = l ↔ k' = l' := by
  obtain ⟨d, e, hde, hd, rfl, rfl⟩ := hk
  obtain ⟨f, g, hfg, hf, rfl, rfl⟩ := hl
  have hname := DataSpec.name?_eq_of_withoutRows hde.1
  have hname' := DataSpec.name?_eq_of_withoutRows hfg.1
  rw [sourceKey_eq_iff hfree (fun hn => mem_hashedData (hd hn).1 hn)
      fun hn => mem_hashedData (hf hn).1 hn,
    sourceKey_eq_iff hfree' (fun hn => mem_hashedData (hd (hname.trans hn)).2 hn)
      fun hn => mem_hashedData (hf (hname'.trans hn)).2 hn]
  unfold DataSpec.SameRoot
  rw [hname, hname', h.sorted_iff hde hfg]

/-- Two datasets that differ in rows only. -/
def SameButRows (a b : Json) : Prop := a.blankField "values" = b.blankField "values"

/-- The root datasets of definitions that differ in rows differ in rows. -/
theorem sameButRows_rootFields {d e : DataSpec} (h : d.withoutRows = e.withoutRows)
    (hname : d.name? = none) (declared declared' : OrderedMap String Json) (name : String) :
    SameButRows (.obj (("name", .str name) :: rootFields declared d))
      (.obj (("name", .str name) :: rootFields declared' e)) := by
  obtain ⟨origin, format⟩ := d
  obtain ⟨origin', format'⟩ := e
  cases origin with
  | name n => cases hname
  | values rows =>
    cases origin' with
    | values rows' => rfl
    | url address | name n => cases h
  | url address =>
    obtain ⟨rfl, rfl⟩ := DataSpec.mk.inj (DataSpec.eq_of_withoutRows_eq h rfl)
    rfl

theorem DiffersInRows.rootLaw (h : t.DiffersInRows t') (hdepth : t.SameDepth t')
    (hfree : Json.CollisionFree (t.hashedData settings))
    (hfree' : Json.CollisionFree (t'.hashedData settings)) :
    RootLaw (SamePlace t t') (· ∈ t.lookedUp settings) (· ∈ t'.lookedUp settings)
      (SameKey settings t t') SameButRows where
  name?_eq _ _ hde := DataSpec.name?_eq_of_withoutRows hde.1
  isTooDeep_eq d e hde := by
    cases hinline : d.isInline with
    | true => exact hdepth _ hde.2 hinline
    | false => rw [DataSpec.eq_of_withoutRows_eq hde.1 hinline]
  key d e hde hseen := ⟨d, e, hde, hseen, rfl, rfl⟩
  key_eq_iff _ _ _ _ hk hl := h.key_eq_iff hfree hfree' hk hl
  root _ _ hde hname := sameButRows_rootFields hde.1 hname

/-- The same datasets are declared, with whatever rows. -/
theorem DiffersInRows.namedSource (h : t.DiffersInRows t') (n : String) :
    SameOutcome (Source.Alike SameButRows) ((t.requested settings).namedSource n)
      ((t'.requested settings).namedSource n) := by
  have hdeclared : (t.datasets.mapValues fun _ => ([] : List Fields)) =
      t'.datasets.mapValues fun _ => [] := congrArg TopLevelSpec.datasets h.rest
  have hget := congrArg (OrderedMap.get? · n) hdeclared
  simp only [OrderedMap.get?_mapValues] at hget
  have hrows : Option.Rel (fun _ _ => True) (t.datasets.get? n) (t'.datasets.get? n) := by
    rcases cases_of_map_eq_map hget with ⟨ht, ht'⟩ | ⟨rows, rows', ht, ht', -⟩
    · rw [ht, ht']
      exact .none
    · rw [ht, ht']
      exact .some trivial
  exact namedSource_alike hrows (fun _ => rfl) fun _ _ _ => rfl

theorem DiffersInRows.alike (h : t.DiffersInRows t') : t.Alike .fixed (SamePlace t t') t' where
  view := ViewSpec.alike_of_withoutRows (congrArg TopLevelSpec.view h.rest) fun _ hx => hx
  config := congrArg (Config.sketch .fixed) (congrArg TopLevelSpec.config h.rest :)

end TopLevelSpec

/-- Documents that are alike but for rows are the same without rows. -/
theorem Document.withoutRows_eq {d d' : Document}
    (h : d.Alike .fixed TopLevelSpec.SameButRows d') : d.withoutRows = d'.withoutRows := by
  obtain ⟨hschema, hsignals, hdata, hentries, hmarks⟩ := h
  have hdata : d.data.map DatasetDef.withoutRows = d'.data.map DatasetDef.withoutRows := by
    refine map_eq_map_of_forall₂ (hdata.imp fun a b hab => ?_)
    cases hab with
    | root hroot => exact congrArg DatasetDef.root hroot
    | derived name source transforms => rfl
  have hentries : ∀ f, d.entries f = d'.entries f := by
    intro f
    have hsame := hentries f
    simp only [Fields.arranged_fixed] at hsame
    exact List.forall₂_eq_eq_eq ▸ hsame
  have hprojections : d.projections = d'.projections := hentries .projection
  have hscales : d.scales = d'.scales := hentries .scale
  have haxes : d.axes = d'.axes := hentries .axis
  have hlegends : d.legends = d'.legends := hentries .legend
  unfold withoutRows
  rw [hdata, hschema, hsignals, hprojections, hscales, haxes, hlegends, hmarks]

namespace TopLevelSpec

variable {settings : Settings} {t t' : TopLevelSpec}

/-- Charts that differ in rows only, in which the same definitions are nested too deeply, have
documents that differ in rows only, or the same error. -/
theorem compile_withoutRows_of_sameDepth (h : t.DiffersInRows t') (hdepth : t.SameDepth t')
    (hfree : Json.CollisionFree (t.hashedData settings))
    (hfree' : Json.CollisionFree (t'.hashedData settings)) :
    (t.compile settings).map Document.withoutRows =
      (t'.compile settings).map Document.withoutRows := by
  have halike := compile_alike Place.isUniform_fixed (h.rootLaw hdepth hfree hfree') h.alike
    h.namedSource (fun _ hd => hd) fun _ he => he
  exact (halike.map fun _ _ => Document.withoutRows_eq).eq

/-- The references of a chart do not depend on its rows. -/
theorem firstUndeclared?_withoutRows (settings : Settings) (t : TopLevelSpec) :
    t.withoutRows.firstUndeclared? settings = t.firstUndeclared? settings := by
  have htakes : (t.withoutRows.requested settings).takes = (t.requested settings).takes := by
    funext n
    rw [takes_requested, takes_requested]
    show (_ || ((t.datasets.mapValues fun _ => ([] : List Fields)).get? n).isSome) = _
    rw [OrderedMap.get?_mapValues, Option.isSome_map]
    rfl
  unfold firstUndeclared?
  rw [htakes, show t.withoutRows.view = t.view.withoutRows from rfl, ViewSpec.bases_withoutRows,
    List.findSome?_map]
  congr 1
  funext b
  show (b.data.map DataSpec.withoutRows).bind _ = _
  rw [Option.bind_map]
  congr 1
  funext d
  show d.withoutRows.undeclared? _ = _
  rw [DataSpec.undeclared?, DataSpec.name?_withoutRows]
  rfl

/-- Of charts that differ in rows only and do not end at data that are nested too deeply, either none
is refused any data, or both are refused the same. -/
theorem DiffersInRows.firstRefusal?_eq (h : t.DiffersInRows t')
    (ht : t.firstRefusal? settings ≠ some .tooDeep)
    (ht' : t'.firstRefusal? settings ≠ some .tooDeep) :
    t.firstRefusal? settings = t'.firstRefusal? settings := by
  rw [firstRefusal?_eq_firstUndeclared? ht, firstRefusal?_eq_firstUndeclared? ht',
    ← firstUndeclared?_withoutRows, h.rest, firstUndeclared?_withoutRows]

/-- A chart that is refused no data has none that are nested too deeply. -/
theorem isTooDeep_of_firstRefusal? (h : t.firstRefusal? settings = none) {d : DataSpec}
    (hd : d ∈ t.view.data) : d.isTooDeep = false := by
  obtain ⟨b, hb, hd⟩ := ViewSpec.mem_data.1 hd
  exact (firstRefusal?_eq_none_iff.1 h b hb d hd).1

/-- A chart does not depend on its rows. Let two charts differ in rows only, and let the same inline
definitions be the same in both. Their documents then differ in rows only, or they end in the same
error, if and only if both or none of them end at data that are nested too deeply; so they do if the
same definitions are nested too deeply in both. -/
theorem compile_withoutRows (h : t.DiffersInRows t')
    (hfree : Json.CollisionFree (t.hashedData settings))
    (hfree' : Json.CollisionFree (t'.hashedData settings)) :
    ((t.compile settings).map Document.withoutRows =
        (t'.compile settings).map Document.withoutRows ↔
      (t.compile settings = .error .tooDeep ↔ t'.compile settings = .error .tooDeep)) ∧
    (t.SameDepth t' → (t.compile settings).map Document.withoutRows =
      (t'.compile settings).map Document.withoutRows) := by
  refine ⟨⟨fun hsame => ?_, fun hboth => ?_⟩, fun hdepth =>
    compile_withoutRows_of_sameDepth h hdepth hfree hfree'⟩
  · rw [← map_eq_error_iff Document.withoutRows, hsame, map_eq_error_iff]
  · by_cases hdeep : t.compile settings = .error .tooDeep
    · rw [hdeep, hboth.1 hdeep]
    · have ht : t.firstRefusal? settings ≠ some .tooDeep := fun ht =>
        hdeep (compile_of_firstRefusal ht)
      have ht' : t'.firstRefusal? settings ≠ some .tooDeep := fun ht' =>
        hdeep (hboth.2 (compile_of_firstRefusal ht'))
      have hrefusals := h.firstRefusal?_eq ht ht'
      cases hrefusal : t.firstRefusal? settings with
      | some e =>
        rw [compile_of_firstRefusal hrefusal, compile_of_firstRefusal (hrefusals ▸ hrefusal)]
      | none =>
        have hrefusal' := hrefusals ▸ hrefusal
        refine compile_withoutRows_of_sameDepth h (fun x hx _ => ?_) hfree hfree'
        rw [isTooDeep_of_firstRefusal? hrefusal (List.of_mem_zip hx).1,
          isTooDeep_of_firstRefusal? hrefusal' (List.of_mem_zip hx).2]

/-- Bars over some rows, over the same rows, over others, and over a dataset. -/
def barsOver (rows others dataset : List Fields) : TopLevelSpec :=
  let bars (origin : DataOrigin) : ViewSpec :=
    .unit ⟨none, some ⟨origin, none⟩, none, none⟩ ⟨⟨"bar", .empty⟩, .empty, none⟩
  ⟨.concat ⟨none, none, none, none⟩
    [bars (.values rows), bars (.values rows), bars (.values others), bars (.name "cars")]
    .horizontal .silent, ⟨[("cars", dataset)]⟩, .plain⟩

/-- A row with one number. -/
def numberRow (n : Int) : Fields := ⟨[("a", .int n)]⟩

/-- Two charts of four bars, whose first two share their rows in both. -/
theorem compile_withoutRows_barsOver :
    (barsOver [numberRow 1] [numberRow 2] [numberRow 3]).DiffersInRows
        (barsOver [] [numberRow 1, numberRow 4] []) ∧
      ((barsOver [numberRow 1] [numberRow 2] [numberRow 3]).compile .standard).map
          Document.withoutRows =
        ((barsOver [] [numberRow 1, numberRow 4] []).compile .standard).map Document.withoutRows ∧
      ((barsOver [numberRow 1] [numberRow 2] [numberRow 3]).compile .standard).isOk = true := by
  have hdiffers : (barsOver [numberRow 1] [numberRow 2] [numberRow 3]).DiffersInRows
      (barsOver [] [numberRow 1, numberRow 4] []) :=
    ⟨rfl, by decide +kernel⟩
  have hfree : Json.CollisionFree
      ((barsOver [numberRow 1] [numberRow 2] [numberRow 3]).hashedData .standard) :=
    (Json.collisionFree_of_nodup (by decide +kernel)).mono fun _ hj => List.mem_eraseDups.2 hj
  have hfree' : Json.CollisionFree
      ((barsOver [] [numberRow 1, numberRow 4] []).hashedData .standard) :=
    (Json.collisionFree_of_nodup (by decide +kernel)).mono fun _ hj => List.mem_eraseDups.2 hj
  have hok : ((barsOver [numberRow 1] [numberRow 2] [numberRow 3]).compile .standard).isOk = true := by
    decide +kernel
  have hok' : ((barsOver [] [numberRow 1, numberRow 4] []).compile .standard).isOk = true := by
    decide +kernel
  refine ⟨hdiffers, (compile_withoutRows hdiffers hfree hfree').1.2 ?_, hok⟩
  refine iff_of_false (fun hdeep => ?_) fun hdeep => ?_
  · rw [hdeep] at hok
    cases hok
  · rw [hdeep] at hok'
    cases hok'

/-- The chart of `deepRow` with a shallow cell. -/
def shallowRow : TopLevelSpec :=
  ⟨.unit ⟨none, some ⟨.values [⟨[("a", nestedLists 1)]⟩], none⟩, none, none⟩
    ⟨⟨"bar", .empty⟩, .empty, none⟩, .empty, .plain⟩

theorem accepted_shallowRow : shallowRow.Accepted :=
  ⟨.obj [("mark", .str "bar"), ("data", .obj [("values",
    .arr [.obj [("a", nestedLists 1)]])])], by decide +kernel, rfl⟩

/-- Rows that are nested too deeply leave no document of a chart that has one over other rows. -/
theorem compile_shallowRow : shallowRow.Accepted ∧ deepRow.Accepted ∧
    shallowRow.withoutRows = deepRow.withoutRows ∧
    (∀ x ∈ shallowRow.view.data.zip deepRow.view.data,
      ∀ y ∈ shallowRow.view.data.zip deepRow.view.data, x.1.isInline = true → y.1.isInline = true →
        (x.1.toJson.sorted = y.1.toJson.sorted ↔ x.2.toJson.sorted = y.2.toJson.sorted)) ∧
    Json.CollisionFree (shallowRow.hashedData .standard) ∧
    Json.CollisionFree (deepRow.hashedData .standard) ∧
    (shallowRow.compile .standard).map Document.withoutRows ≠
      (deepRow.compile .standard).map Document.withoutRows := by
  have hok : (shallowRow.compile .standard).isOk = true := by decide +kernel
  have herror : deepRow.compile .standard = .error .tooDeep :=
    (map_eq_error_iff fun _ => ()).1 (by decide +kernel)
  have hnone : deepRow.hashedData .standard = [] := by decide +kernel
  refine ⟨accepted_shallowRow, accepted_deepRow, rfl, ?_,
    Json.collisionFree_of_nodup (by decide +kernel), ?_, ?_⟩
  · rintro x hx y hy - -
    rw [List.mem_singleton.1 hx, List.mem_singleton.1 hy]
    exact ⟨fun _ => rfl, fun _ => rfl⟩
  · rw [hnone]
    exact fun a ha => absurd ha List.not_mem_nil
  · intro hsame
    rw [herror] at hsame
    have hshallow : shallowRow.compile .standard = .error .tooDeep :=
      (map_eq_error_iff Document.withoutRows).1 hsame
    rw [hshallow] at hok
    cases hok

end TopLevelSpec

end ChartLowering
