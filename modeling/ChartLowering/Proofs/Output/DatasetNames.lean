import ChartLowering.Proofs.Dataset.OwnData
import ChartLowering.Proofs.Dataset.Pipelines
import ChartLowering.Proofs.Output.Consulted
import ChartLowering.Proofs.Schema.Accepted

/-
  Names of written datasets.

  A document writes those roots that it consults or that a derived dataset starts from, and all
  derived datasets, because each is consulted by the mark of a unit (`DataGroup.wanted_eq`). Roots
  are written or not by their names. So the names are distinct, and no derived dataset starts from
  itself, if and only if no written reference has a number that is in use or the name of a derived
  dataset (`dataset_names`). A reference may well have such a name (`dataset_names_clash`).
-/

namespace ChartLowering

open ViewTree

/-- The name of a dataset as it is written out. -/
def DatasetDef.name : DatasetDef → Json
  | .root dataset => (dataset.field? "name").getD .null
  | .derived name _ _ => .str name

/-- Whether a dataset does not start from one of its own name. -/
def DatasetDef.startsElsewhere : DatasetDef → Bool
  | .root _ => true
  | .derived name source _ => name != source

/-- The names of a document's datasets. -/
def Document.datasetNames (d : Document) : List Json := d.data.map DatasetDef.name

namespace Registry

/-- Whether a root of some name is written out. -/
def isWritten (r : Registry) (n : String) : Bool :=
  r.isConsulted n || r.neededSources.contains n

end Registry

/-- What the datasets of a document are: those of the registered and linked outputs `r`, after `q`
has noted what the document consults. -/
structure DataGroup (settings : Settings) (t : TopLevelSpec) (d : Document) (r q : Registry) :
    Prop where
  registered : t.registered settings = .ok r
  sources : q.sources = r.sources
  derived : q.derived = r.link.derived
  consulted : ∀ n, q.isConsulted n = true ↔
    (∃ l ∈ (t.resolved settings).walk [], n ∈ l.tree.label.fitConsulted r.link) ∨
      n ∈ Mark.consultationsAll d.marks ∨ n ∈ (t.resolved settings).requestedOutputs
  marks : d.marks = (t.resolved settings).marks r.link []
  data : d.data = q.emit (t.resolved settings).projectionSeenFrom

namespace TopLevelSpec

theorem exists_dataGroup {settings : Settings} {t : TopLevelSpec} {d : Document}
    (hd : t.compile settings = .ok d) : ∃ r q, DataGroup settings t d r q := by
  unfold compile at hd
  obtain ⟨result, hresult, rfl⟩ := map_eq_ok.1 hd
  obtain ⟨r, hr, hassemble⟩ := bind_eq_ok.1 hresult
  obtain ⟨hmarks, hdata⟩ := data_assemble hassemble
  have h := registered_eq_ok hr
  obtain ⟨concrete, derived, hlink⟩ := Registry.link_frame _
  have hsources : r.link.sources = r.sources := by rw [hlink]
  have hconsulted : r.link.consulted = (t.resolved settings).requestedOutputs.reverse := by
    obtain ⟨_, _, _, _, hframe⟩ := h.frame
    rw [hlink, hframe]
    exact List.append_nil _
  refine ⟨r, r.link.note _, hr, hsources, rfl, fun n => ?_, hmarks, hdata⟩
  unfold Registry.isConsulted Registry.note
  rw [List.contains_iff_mem, List.mem_append, List.mem_reverse, List.mem_append, hconsulted,
    List.mem_reverse, List.mem_flatMap, or_assoc]

end TopLevelSpec

namespace DataGroup

variable {settings : Settings} {t : TopLevelSpec} {d : Document} {r q : Registry}

theorem outputs (h : DataGroup settings t d r q) :
    Registry.Registered (t.requested settings) r (t.resolved settings).labels :=
  TopLevelSpec.registered_eq_ok h.registered

/-- A document consults what the marks of its views do. -/
theorem mem_consultationsAll (h : DataGroup settings t d r q) {n : String} :
    n ∈ Mark.consultationsAll d.marks ↔
      ∃ v ∈ (t.resolved settings).labels, v.consulted? r.link = some n := by
  rw [h.marks, consultationsAll_marks (isResolved_resolved settings t).leaf, List.mem_filterMap]
  simp [Tree.labels]

/-- Every derived dataset is consulted, by the mark of the unit that it was made for. -/
theorem mem_consultationsAll_of_derived (h : DataGroup settings t d r q) {n : String}
    (hn : n ∈ r.link.derived.keys) : n ∈ Mark.consultationsAll d.marks := by
  obtain ⟨⟨n, p⟩, hp, rfl⟩ := List.mem_map.1 hn
  obtain ⟨hself, i, v, u, data, s, hlast, hform, hdata, -, -⟩ :=
    h.outputs.exists_unit_of_derived hp
  refine h.mem_consultationsAll.2 ⟨v, List.mem_of_getElem? hlast.here, ?_⟩
  unfold View.consulted?
  rw [hform, hdata]
  simp only [Option.map_some, Registry.concreteName, hlast.name, hself, Option.getD_some]

theorem isConsulted_of_derived (h : DataGroup settings t d r q) {n : String}
    (hn : n ∈ r.link.derived.keys) : q.isConsulted n = true :=
  (h.consulted n).2 (Or.inr (Or.inl (h.mem_consultationsAll_of_derived hn)))

/-- All derived datasets are written. -/
theorem wanted_eq (h : DataGroup settings t d r q) : q.wanted = r.link.derived.entries := by
  unfold Registry.wanted
  rw [h.derived]
  exact List.filter_eq_self.2 fun e he => h.isConsulted_of_derived (List.mem_map_of_mem he)

theorem exists_source (h : DataGroup settings t d r q) {e : String × Pipeline}
    (he : e ∈ r.link.derived.entries) : ∃ s ∈ r.sources.values, e.2.source = some s := by
  obtain ⟨-, i, v, u, data, s, -, -, -, hs, hp⟩ := h.outputs.exists_unit_of_derived he
  exact ⟨s, List.mem_map_of_mem (OrderedMap.mem_entries_of_get? hs), by rw [hp]⟩

theorem source_mem (h : DataGroup settings t d r q) {e : String × Pipeline}
    (he : e ∈ r.link.derived.entries) {s : Source} (hs : e.2.source = some s) :
    s ∈ r.sources.values := by
  obtain ⟨s', hs', hsource⟩ := h.exists_source he
  rwa [Option.some.inj (hs.symm.trans hsource)]

theorem name_root (h : DataGroup settings t d r q) {s : Source} (hs : s ∈ r.sources.values) :
    (DatasetDef.root s.dataset).name = .str s.name := by
  obtain ⟨⟨key, s⟩, he, rfl⟩ := List.mem_map.1 hs
  obtain ⟨e, -, -, hdataset⟩ := h.outputs.rooted.described key s
    (OrderedMap.get?_of_mem h.outputs.rooted.nodup he)
  unfold DatasetDef.name
  simp only
  rw [hdataset, Json.field?_cons_self]
  rfl

/-- The names of the datasets: those of written roots, and those of all derived datasets. -/
theorem datasetNames_eq (h : DataGroup settings t d r q) :
    d.datasetNames = ((r.sources.values.filter fun s => q.isWritten s.name).map Source.name ++
      r.link.derived.keys).map .str := by
  unfold Document.datasetNames
  rw [h.data, Registry.emit, h.wanted_eq, h.sources, List.map_append, List.map_append, List.map_map,
    List.map_map]
  congr 1
  · exact List.map_congr_left fun s hs => h.name_root (List.mem_filter.1 hs).1
  · unfold OrderedMap.keys
    rw [List.map_filterMap, List.map_map, ← List.filterMap_eq_map]
    refine List.filterMap_congr ?_
    rintro ⟨n, p⟩ he
    obtain ⟨s, -, hs⟩ := h.exists_source he
    simp only at hs
    simp [hs, DatasetDef.name]

theorem mem_datasetNames (h : DataGroup settings t d r q) {n : String} :
    .str n ∈ d.datasetNames ↔
      (∃ s ∈ r.sources.values, q.isWritten s.name = true ∧ s.name = n) ∨
        n ∈ r.link.derived.keys := by
  rw [h.datasetNames_eq, List.mem_map]
  simp only [Json.str.injEq, exists_eq_right, List.mem_append, List.mem_map, List.mem_filter,
    and_assoc]

/-- The derived datasets of a document. -/
theorem mem_derived (h : DataGroup settings t d r q) {n source : String} {transforms : List Json} :
    .derived n source transforms ∈ d.data ↔ ∃ p s, (n, p) ∈ r.link.derived.entries ∧
      p.source = some s ∧ s.name = source ∧
        transforms = p.transforms.flatMap (·.emit (t.resolved settings).projectionSeenFrom) := by
  rw [h.data, Registry.emit, h.wanted_eq, List.mem_append, List.mem_filterMap]
  constructor
  · rintro (hroot | ⟨⟨m, p⟩, hp, hderived⟩)
    · obtain ⟨s, -, hs⟩ := List.mem_map.1 hroot
      cases hs
    · obtain ⟨s, hs, hderived⟩ := Option.map_eq_some_iff.1 hderived
      cases hderived
      exact ⟨p, s, hp, hs, rfl, rfl⟩
  · rintro ⟨p, s, hp, hs, rfl, rfl⟩
    exact Or.inr ⟨(n, p), hp, by simp only [hs, Option.map_some]⟩

theorem mem_derived_keys (h : DataGroup settings t d r q) {n : String} :
    n ∈ r.link.derived.keys ↔ ∃ source transforms, .derived n source transforms ∈ d.data := by
  constructor
  · intro hn
    obtain ⟨⟨n, p⟩, hp, rfl⟩ := List.mem_map.1 hn
    obtain ⟨s, -, hs⟩ := h.exists_source hp
    exact ⟨s.name, _, h.mem_derived.2 ⟨p, s, hp, hs, rfl, rfl⟩⟩
  · rintro ⟨source, transforms, hderived⟩
    obtain ⟨p, -, hp, -⟩ := h.mem_derived.1 hderived
    exact List.mem_map_of_mem hp

/-- A reference is written if and only if roots of its name are. -/
theorem mem_datasetNames_of_named (h : DataGroup settings t d r q) {n : String}
    (hn : .named n ∈ r.sources.keys) : .str n ∈ d.datasetNames ↔ q.isWritten n = true := by
  rw [h.mem_datasetNames]
  constructor
  · rintro (⟨s, -, hwritten, rfl⟩ | hderived)
    · exact hwritten
    · exact Bool.or_eq_true_iff.2 (Or.inl (h.isConsulted_of_derived hderived))
  · intro hwritten
    obtain ⟨⟨key, s⟩, he, rfl⟩ := List.mem_map.1 hn
    have hname := h.outputs.rooted.name_of_named he
    exact Or.inl ⟨s, List.mem_map_of_mem he, by rw [hname, hwritten], hname⟩

end DataGroup

namespace TopLevelSpec

open Registry

/-- Datasets have distinct names and do not start from themselves if and only if no reference that
is written has a number that is in use, or the name of a derived dataset. -/
theorem dataset_names {settings : Settings} {t : TopLevelSpec} {d : Document}
    (hd : t.compile settings = .ok d) :
    ∃ r, t.registered settings = .ok r ∧
      ((d.datasetNames.Nodup ∧ ∀ n transforms, .derived n n transforms ∉ d.data) ↔
        ∀ v ∈ (t.resolved settings).labels, ∀ e n, v.outputData? = some e → e.name? = some n →
          .str n ∈ d.datasetNames → (∀ i < r.numbered, n ≠ numberedName i) ∧
            ∀ source transforms, .derived n source transforms ∉ d.data) := by
  obtain ⟨r, q, h⟩ := exists_dataGroup hd
  have houtputs := h.outputs
  have hnodup : d.datasetNames.Nodup ↔ ∀ n, .named n ∈ r.sources.keys → q.isWritten n = true →
      (∀ i < r.numbered, n ≠ numberedName i) ∧ n ∉ r.link.derived.keys := by
    rw [h.datasetNames_eq, List.nodup_map_iff fun _ _ => Json.str.inj, houtputs.nodup_names_iff]
  have hderived {n : String} : n ∉ r.link.derived.keys ↔
      ∀ source transforms, .derived n source transforms ∉ d.data := by
    rw [h.mem_derived_keys]
    simp only [not_exists]
  refine ⟨r, h.registered, ?_⟩
  constructor
  · rintro ⟨hnames, -⟩ v hv e n he hname hwritten
    have hn : .named n ∈ r.sources.keys := houtputs.named_mem_keys.2 ⟨v, hv, e, he, hname⟩
    rw [← hderived]
    exact hnodup.1 hnames n hn ((h.mem_datasetNames_of_named hn).1 hwritten)
  · intro hapart
    have hkeys {n : String} (hn : .named n ∈ r.sources.keys) (hwritten : .str n ∈ d.datasetNames) :
        (∀ i < r.numbered, n ≠ numberedName i) ∧ n ∉ r.link.derived.keys := by
      obtain ⟨v, hv, e, he, hname⟩ := houtputs.named_mem_keys.1 hn
      rw [hderived]
      exact hapart v hv e n he hname hwritten
    refine ⟨hnodup.2 fun n hn hwritten => hkeys hn ((h.mem_datasetNames_of_named hn).2 hwritten), ?_⟩
    intro n transforms hself
    obtain ⟨p, s, hp, hs, rfl, -⟩ := h.mem_derived.1 hself
    have hmem : s.name ∈ r.link.derived.keys := List.mem_map_of_mem hp
    obtain ⟨v, -, -, hmain⟩ := houtputs.mem_outputs_keys.1 (houtputs.derived_sublist.subset hmem)
    have hn := houtputs.named_of_name_eq (h.source_mem hp hs) hmain.symm
    exact (hkeys hn (h.mem_datasetNames.2 (Or.inr hmem))).2 hmem

/-- The places and the bars start from two references, and there is one derived dataset. -/
theorem dataset_names_placesBesideBars : ∃ d r,
    placesBesideBars.compile .standard = .ok d ∧ placesBesideBars.registered .standard = .ok r ∧
      d.datasetNames = [.str "cities", .str "cars", .str "concat_0_main"] ∧
      ∀ v ∈ (placesBesideBars.resolved .standard).labels, ∀ e n, v.outputData? = some e →
        e.name? = some n → .str n ∈ d.datasetNames → (∀ i < r.numbered, n ≠ numberedName i) ∧
          ∀ source transforms, .derived n source transforms ∉ d.data := by
  have hnames : (placesBesideBars.compile .standard).toOption.any (fun d =>
      decide (d.datasetNames = [.str "cities", .str "cars", .str "concat_0_main"]) &&
        d.data.all DatasetDef.startsElsewhere) = true := by
    decide +kernel
  cases hd : placesBesideBars.compile .standard with
  | error cause => rw [hd] at hnames; cases hnames
  | ok d =>
    rw [hd] at hnames
    obtain ⟨hnames, helsewhere⟩ := Bool.and_eq_true_iff.1 hnames
    have hnames := of_decide_eq_true hnames
    obtain ⟨r, hr, hiff⟩ := dataset_names hd
    refine ⟨d, r, rfl, hr, hnames, hiff.1 ⟨by rw [hnames]; decide, ?_⟩⟩
    intro n transforms hself
    have hne := List.all_eq_true.1 helsewhere _ hself
    simp [DatasetDef.startsElsewhere] at hne

/-- Points of a reference with a number, beside points without a name for their data. -/
def numberedReference : TopLevelSpec :=
  let points (data : DataOrigin) : ViewSpec :=
    .unit ⟨none, some ⟨data, none⟩, none, none⟩ ⟨⟨"point", .empty⟩, .empty, none⟩
  ⟨.concat ⟨none, none, none, none⟩ [points (.name "source_0"), points (.url "a.csv")]
    .horizontal .silent, .empty, .plain⟩

theorem accepted_numberedReference : numberedReference.Accepted :=
  let points (key value : String) : Json :=
    .obj [("mark", .str "point"), ("data", .obj [(key, .str value)])]
  ⟨.obj [("hconcat", .arr [points "name" "source_0", points "url" "a.csv"])],
    by decide +kernel, rfl⟩

/-- Places of a reference with the name of their output. -/
def selfReference : TopLevelSpec :=
  ⟨.unit ⟨none, some ⟨.name "main", none⟩, none, none⟩ places, .empty, .plain⟩

theorem accepted_selfReference : selfReference.Accepted :=
  ⟨.obj [("mark", .str "point"), ("data", .obj [("name", .str "main")]),
    ("encoding", .obj [("longitude", .obj [("field", .str "lon")]),
      ("latitude", .obj [("field", .str "lat")])])], by decide +kernel, rfl⟩

/-- Two roots are written under the first number, and a derived dataset starts from itself. -/
theorem dataset_names_clash :
    (numberedReference.Accepted ∧ ∃ d, numberedReference.compile .standard = .ok d ∧
      d.datasetNames = [.str "source_0", .str "source_0"] ∧ ¬ d.datasetNames.Nodup) ∧
    selfReference.Accepted ∧ ∃ d transforms, selfReference.compile .standard = .ok d ∧
      .derived "main" "main" transforms ∈ d.data := by
  have hnumbered : (numberedReference.compile .standard).toOption.any (fun d =>
      decide (d.datasetNames = [.str "source_0", .str "source_0"])) = true := by
    decide +kernel
  have hself : (selfReference.compile .standard).toOption.any (fun d =>
      d.data.any fun e => match e with
        | .derived name source _ => name == "main" && source == "main"
        | .root _ => false) = true := by
    decide +kernel
  constructor
  · refine ⟨accepted_numberedReference, ?_⟩
    cases hd : numberedReference.compile .standard with
    | error cause => rw [hd] at hnumbered; cases hnumbered
    | ok d =>
      rw [hd] at hnumbered
      have hnames := of_decide_eq_true hnumbered
      exact ⟨d, rfl, hnames, by rw [hnames]; decide⟩
  · refine ⟨accepted_selfReference, ?_⟩
    cases hd : selfReference.compile .standard with
    | error cause => rw [hd] at hself; cases hself
    | ok d =>
      rw [hd] at hself
      obtain ⟨e, he, hmain⟩ := List.any_eq_true.1 hself
      cases e with
      | root dataset => cases hmain
      | derived name source transforms =>
        obtain ⟨hname, hsource⟩ := Bool.and_eq_true_iff.1 hmain
        rw [beq_iff_eq] at hname hsource
        subst hname hsource
        exact ⟨d, transforms, rfl, he⟩

end TopLevelSpec

end ChartLowering
