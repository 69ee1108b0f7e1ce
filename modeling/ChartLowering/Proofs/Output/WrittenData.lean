import ChartLowering.Proofs.Dataset.Backing
import ChartLowering.Proofs.Output.DatasetNames

/-
  Which datasets a document writes, and in what order.

  A document writes exactly the datasets that it refers to, as long as no reference has a name that
  a compile may make up (`written_data`): those that marks read or repeat their groups over, those
  whose rows a projection is fit to, and those that derived datasets start from. Projections also
  ask for outputs by the outputs' names; under the assumption no root has such a name, and derived
  datasets are read by marks anyway. Roots come first, and within roots and derived datasets the
  order is that of their first registration.
-/

namespace ChartLowering

open ViewTree

/-! ## Expressions of rows -/

namespace Registry

variable {r : Registry}

theorem rowsExpression_injective {m n : String} (h : rowsExpression m = rowsExpression n) :
    m = n := by
  unfold rowsExpression at h
  have hl := congrArg String.toList h
  rw [String.toList_append, String.toList_append, String.toList_append, String.toList_append] at hl
  exact String.toList_injective (List.append_cancel_left (List.append_cancel_right hl))

/-- The expression of rows is no generated name, as it has a bracket. -/
theorem rowsExpression_ne_partName (n : String) (v : View) (part : String) :
    rowsExpression n ≠ v.partName part := by
  intro h
  have hbracket : '(' ∈ (rowsExpression n).toList := by
    unfold rowsExpression
    rw [String.toList_append, String.toList_append]
    simp
  rw [h] at hbracket
  exact absurd (Text.isWordChar_of_mem_qualified hbracket) (by decide +kernel)

end Registry

namespace View

variable {r : Registry} {v : View}

/-- The datasets that live projections consult are those whose rows they can be fit to. -/
theorem mem_fitConsulted {n : String} :
    n ∈ v.fitConsulted r ↔ ∃ e ∈ v.liveComponents .projection, ∃ sources,
      e.2.data = some sources ∧ ∃ m, .output m ∈ sources ∧ r.concrete.get? m = some n := by
  unfold fitConsulted Registry.fitConsultations
  rw [List.mem_flatMap]
  constructor
  · rintro ⟨e, he, hn⟩
    obtain ⟨source, hsource, hn⟩ := List.mem_filterMap.1 hn
    cases hdata : e.2.data with
    | none => rw [hdata] at hsource; exact absurd hsource List.not_mem_nil
    | some sources =>
      rw [hdata] at hsource
      cases source with
      | output m => exact ⟨e, he, sources, hdata, m, hsource, hn⟩
      | signal m notes => cases hn
      | unusable j => cases hn
  · rintro ⟨e, he, sources, hdata, m, hm, hn⟩
    refine ⟨e, he, List.mem_filterMap.2 ⟨.output m, ?_, hn⟩⟩
    rw [hdata]
    exact hm

end View

namespace DataGroup

variable {settings : Settings} {t : TopLevelSpec} {d : Document} {r q : Registry}

/-- What an output is linked to is written if it is consulted. -/
theorem mem_datasetNames_of_concrete (h : DataGroup settings t d r q) {m n : String}
    (hm : r.link.concrete.get? m = some n) (hconsulted : q.isConsulted n = true) :
    .str n ∈ d.datasetNames := by
  have houtputs := h.outputs
  rw [Registry.get?_concrete_link houtputs.concrete houtputs.derived houtputs.nodup] at hm
  obtain ⟨p, hp, htarget⟩ := Option.bind_eq_some_iff.1 hm
  rw [h.mem_datasetNames]
  cases hchain : p.chain? with
  | none =>
    rw [Registry.target?_of_no_chain hchain] at htarget
    obtain ⟨s, hs, rfl⟩ := Option.map_eq_some_iff.1 htarget
    obtain ⟨i, v, e, s', -, -, hs', rfl⟩ := houtputs.last m p hp
    obtain rfl : s' = s := Option.some.inj hs
    exact Or.inl ⟨s', List.mem_map_of_mem (OrderedMap.mem_entries_of_get? hs'),
      Bool.or_eq_true_iff.2 (Or.inl hconsulted), rfl⟩
  | some chain =>
    rw [Registry.target?_of_chain hchain] at htarget
    obtain ⟨p', hp', hchain'⟩ := Registry.mem_of_owner? htarget
    right
    unfold OrderedMap.keys
    rw [Registry.derived_link houtputs.concrete houtputs.derived houtputs.nodup]
    refine List.mem_map.2 ⟨(n, p'), List.mem_filter.2 ⟨hp', ?_⟩, rfl⟩
    unfold Registry.owns
    rw [hchain', Option.any_some, htarget]
    exact beq_self_eq_true _

/-- The dataset that a view's mark consults is the one that the view's output is linked to. -/
theorem get?_concrete_of_consulted? (h : DataGroup settings t d r q) {v : View}
    (hv : v ∈ (t.resolved settings).labels) {n : String} (hn : v.consulted? r.link = some n) :
    r.link.concrete.get? v.mainOutput = some n := by
  have hbacked : r.link.backs v.mainOutput = true ∧ n = r.link.concreteName v.mainOutput := by
    unfold View.consulted? at hn
    split at hn
    · rename_i u hform
      obtain ⟨e, he, rfl⟩ := Option.map_eq_some_iff.1 hn
      have houtput := View.hasOutput_iff_outputData?.2 ⟨e, (View.outputData?_unit hform).trans he⟩
      exact ⟨(h.outputs.backsViews.backs _).2 ⟨v, hv, houtput, rfl⟩, rfl⟩
    · split at hn
      · rename_i hbacks
        exact ⟨hbacks, (Option.some.inj hn).symm⟩
      · cases hn
    · cases hn
  obtain ⟨hbacks, rfl⟩ := hbacked
  obtain ⟨m, hm⟩ := Option.isSome_iff_exists.1 hbacks
  rw [Registry.concreteName, hm]
  rfl

/-- A root with the name of a view's output is written only under a reference of that name. -/
theorem ne_mainOutput (h : DataGroup settings t d r q)
    (hapart : Registry.ReferencesApart (t.resolved settings).labels) {s : Source}
    (hs : s ∈ r.sources.values) : s.name ∉ (t.resolved settings).labels.map View.mainOutput := by
  intro hmem
  obtain ⟨v, -, hmain⟩ := List.mem_map.1 hmem
  obtain ⟨w, hw, e, he, hname⟩ :=
    h.outputs.named_mem_keys.1 (h.outputs.named_of_name_eq hs hmain.symm)
  exact (hapart w hw e s.name (View.data_of_outputData? he) hname).2 hmem

end DataGroup

/-- Where a document refers to a dataset by its name. -/
inductive DatasetReference (r : Registry) (t : ViewTree) (d : Document) (n : String) : Prop where
  /-- A mark reads the dataset, or repeats its group over it. -/
  | mark {m : Mark} (hm : m ∈ Mark.nestedAll d.marks) (hn : m.dataset? = some n)
  /-- A live projection is fit to the rows of the dataset. -/
  | fit {l : Located View} (hl : l ∈ t.walk []) {e : Option Channel × Component}
      (he : e ∈ l.tree.label.liveComponents .projection) {sources : List FitSource}
      (hsources : e.2.data = some sources)
      (hn : Registry.rowsExpression n ∈ r.fitExpressions sources)
  /-- A derived dataset starts from the dataset. -/
  | source {name : String} {transforms : List Json} (hn : .derived name n transforms ∈ d.data)

namespace DataGroup

variable {settings : Settings} {t : TopLevelSpec} {d : Document} {r q : Registry}

/-- A dataset that the marks of a document consult is read by one of them. -/
theorem reference_of_mark {n : String} (hn : n ∈ Mark.consultationsAll d.marks) :
    DatasetReference r.link (t.resolved settings) d n := by
  rw [Mark.consultationsAll_eq_filterMap] at hn
  obtain ⟨m, hm, hn⟩ := List.mem_filterMap.1 hn
  exact .mark hm hn

/-- What is written is referred to. -/
theorem reference_of_written (h : DataGroup settings t d r q)
    (hapart : Registry.ReferencesApart (t.resolved settings).labels) {n : String}
    (hn : .str n ∈ d.datasetNames) : DatasetReference r.link (t.resolved settings) d n := by
  rcases h.mem_datasetNames.1 hn with ⟨s, hs, hwritten, rfl⟩ | hderived
  · rcases Bool.or_eq_true_iff.1 hwritten with hconsulted | hneeded
    · rcases (h.consulted _).1 hconsulted with ⟨l, hl, hfit⟩ | hmark | hrequested
      · obtain ⟨e, he, sources, hsources, m, hm, hconcrete⟩ := View.mem_fitConsulted.1 hfit
        refine .fit hl he hsources (Registry.mem_fitExpressions.2 ⟨_, hm, ?_⟩)
        rw [Registry.fitExpression?, hconcrete]
        rfl
      · exact reference_of_mark hmark
      · have houtput := (isResolved_resolved settings t).requestedOutputs_subset hrequested
        exact absurd houtput (h.ne_mainOutput hapart hs)
    · rw [List.contains_iff_mem, Registry.neededSources, h.wanted_eq] at hneeded
      obtain ⟨⟨name, p⟩, hp, hname⟩ := List.mem_filterMap.1 hneeded
      obtain ⟨s', hs', hname⟩ := Option.map_eq_some_iff.1 hname
      exact .source (h.mem_derived.2 ⟨p, s', hp, hs', hname, rfl⟩)
  · exact reference_of_mark (h.mem_consultationsAll_of_derived hderived)

/-- What is referred to is written. -/
theorem written_of_reference (h : DataGroup settings t d r q) {n : String}
    (hn : DatasetReference r.link (t.resolved settings) d n) : .str n ∈ d.datasetNames := by
  cases hn with
  | mark hm hn =>
    have hmark : n ∈ Mark.consultationsAll d.marks := by
      rw [Mark.consultationsAll_eq_filterMap]
      exact List.mem_filterMap.2 ⟨_, hm, hn⟩
    obtain ⟨v, hv, hconsulted⟩ := h.mem_consultationsAll.1 hmark
    exact h.mem_datasetNames_of_concrete (h.get?_concrete_of_consulted? hv hconsulted)
      ((h.consulted n).2 (Or.inr (Or.inl hmark)))
  | fit hl he hsources hn =>
    obtain ⟨source, hsource, hn⟩ := Registry.mem_fitExpressions.1 hn
    cases source with
    | output m =>
      obtain ⟨n', hn', hrows⟩ := Option.map_eq_some_iff.1 hn
      obtain rfl := Registry.rowsExpression_injective hrows
      have hfit := View.mem_fitConsulted.2 ⟨_, he, _, hsources, m, hsource, hn'⟩
      exact h.mem_datasetNames_of_concrete hn' ((h.consulted n').2 (Or.inl ⟨_, hl, hfit⟩))
    | signal m notes =>
      -- signals are generated names
      unfold Registry.fitExpression? at hn
      simp only at hn
      split at hn
      · rename_i hproduced
        obtain ⟨v, -, hextracted⟩ := (h.outputs.backsViews.produces _).1 hproduced
        obtain ⟨-, i, -, hsignal⟩ := View.mem_extracted hextracted
        have hrows : Registry.rowsExpression n = m := (Option.some.inj hn).symm
        exact absurd (hrows.trans hsignal.symm) (Registry.rowsExpression_ne_partName n v _)
      · cases hn
    | unusable j => cases hn
  | source hn =>
    obtain ⟨p, s, hp, hs, hname, -⟩ := h.mem_derived.1 hn
    refine h.mem_datasetNames.2
      (Or.inl ⟨s, h.source_mem hp hs, Bool.or_eq_true_iff.2 (Or.inr ?_), hname⟩)
    rw [List.contains_iff_mem, Registry.neededSources, h.wanted_eq]
    refine List.mem_filterMap.2 ⟨_, hp, ?_⟩
    simp only [hs, Option.map_some]

end DataGroup

/-! ## Order -/

namespace Registry

/-- Whether datasets are written in the order of their registration: first roots, as definitions of
data were first seen in the walk, and then derived datasets, as outputs of their names were. -/
def InOrder (r : Registry) (views : List View) (data : List DatasetDef) : Prop :=
  ∃ keys roots outputs derived,
    data = roots.map (fun s : Source => .root s.dataset) ++ derived ∧
    keys.Sublist ((views.filterMap View.outputData?).map sourceKey).eraseDups ∧
    List.Forall₂ (fun key s => r.sources.get? key = some s) keys roots ∧
    outputs.Sublist ((views.filter View.hasOutput).map View.mainOutput).eraseDups ∧
    List.Forall₂ (fun n e => ∃ source transforms, e = .derived n source transforms) outputs derived

end Registry

namespace DataGroup

variable {settings : Settings} {t : TopLevelSpec} {d : Document} {r q : Registry}

theorem inOrder (h : DataGroup settings t d r q) :
    r.InOrder (t.resolved settings).labels d.data := by
  have hrooted := h.outputs.rooted
  let written := r.sources.entries.filter fun e => q.isWritten e.2.name
  let derived := r.link.derived.entries.filterMap fun e => e.2.source.map fun s =>
    DatasetDef.derived e.1 s.name
      (e.2.transforms.flatMap (·.emit (t.resolved settings).projectionSeenFrom))
  refine ⟨written.map Prod.fst, written.map Prod.snd, r.link.derived.keys, derived, ?data, ?keys,
    ?roots, ?outputs, ?derived⟩
  case data =>
    rw [h.data, Registry.emit, h.wanted_eq, h.sources, OrderedMap.values, List.filter_map]
    rfl
  case keys =>
    rw [← hrooted.keys]
    exact List.filter_sublist.map Prod.fst
  case roots =>
    rw [List.forall₂_map_left_iff, List.forall₂_map_right_iff, List.forall₂_same]
    intro e he
    exact OrderedMap.get?_of_mem hrooted.nodup (List.mem_filter.1 he).1
  case outputs =>
    rw [← h.outputs.keys]
    exact h.outputs.derived_sublist
  case derived =>
    have hsourced : ∀ e ∈ r.link.derived.entries, ∃ s, e.2.source = some s := fun e he =>
      (h.exists_source he).imp fun s hs => hs.2
    unfold derived OrderedMap.keys
    generalize r.link.derived.entries = entries at hsourced ⊢
    induction entries with
    | nil => exact .nil
    | cons e rest ih =>
      obtain ⟨⟨s, hs⟩, hrest⟩ := List.forall_mem_cons.1 hsourced
      obtain ⟨n, p⟩ := e
      have hs : p.source = some s := hs
      simp only [List.map_cons, List.filterMap_cons, hs, Option.map_some]
      exact .cons ⟨_, _, rfl⟩ (ih hrest)

end DataGroup

namespace TopLevelSpec

open Registry

/-- If no reference has a name that a compile may make up, a document writes the datasets that it
refers to and no others, roots before derived datasets, and both as they were first registered. -/
theorem written_data {settings : Settings} {t : TopLevelSpec} {d : Document}
    (hd : t.compile settings = .ok d) (hapart : ReferencesApart (t.resolved settings).labels) :
    ∃ r, t.registered settings = .ok r ∧
      (∀ x, x ∈ d.datasetNames ↔
        ∃ n, x = .str n ∧ DatasetReference r.link (t.resolved settings) d n) ∧
      r.InOrder (t.resolved settings).labels d.data := by
  obtain ⟨r, q, h⟩ := exists_dataGroup hd
  refine ⟨r, h.registered, ?_, h.inOrder⟩
  intro x
  constructor
  · intro hx
    have hnames := hx
    rw [h.datasetNames_eq] at hnames
    obtain ⟨n, -, rfl⟩ := List.mem_map.1 hnames
    exact ⟨n, rfl, h.reference_of_written hapart hx⟩
  · rintro ⟨n, rfl, hn⟩
    exact h.written_of_reference hn

/-- A map over its rows, and places on it. -/
def mapWithPlaces : TopLevelSpec :=
  let bare : ViewBase := ⟨none, none, none, none⟩
  ⟨.layer ⟨none, some ⟨.name "cities", none⟩, none, none⟩
    [.unit bare rowsMap, .unit bare places] .silent, .empty, .plain⟩

theorem referencesApart_mapWithPlaces :
    ReferencesApart (mapWithPlaces.resolved .standard).labels := by
  have hcities : ((mapWithPlaces.resolved .standard).labels.all fun v =>
      decide (v.data = some ⟨.name "cities", none⟩ ∧ v.mainOutput ≠ "cities")) = true := by
    decide +kernel
  rw [List.all_eq_true] at hcities
  intro v hv e n he hname
  have hdata := (of_decide_eq_true (hcities v hv)).1
  obtain rfl := Option.some.inj (he.symm.trans hdata)
  obtain rfl : "cities" = n := Option.some.inj hname
  constructor
  · intro i hi
    have hheads := congrArg (fun n => n.toList.head?) hi
    simp [numberedName] at hheads
  · intro hmem
    obtain ⟨w, hw, hmain⟩ := List.mem_map.1 hmem
    exact (of_decide_eq_true (hcities w hw)).2 hmain

/-- The cities are referred to in all three ways, and the places by their mark. -/
theorem written_data_mapWithPlaces : ∃ d r, mapWithPlaces.compile .standard = .ok d ∧
    ReferencesApart (mapWithPlaces.resolved .standard).labels ∧
    mapWithPlaces.registered .standard = .ok r ∧
    d.datasetNames = [.str "cities", .str "layer_1_main"] ∧
    (∀ n ∈ ["cities", "layer_1_main"],
      DatasetReference r.link (mapWithPlaces.resolved .standard) d n) ∧
    r.InOrder (mapWithPlaces.resolved .standard).labels d.data := by
  have hok : (mapWithPlaces.compile .standard).toOption.any (fun d =>
      decide (d.datasetNames = [.str "cities", .str "layer_1_main"])) = true := by
    decide +kernel
  cases hd : mapWithPlaces.compile .standard with
  | error cause => rw [hd] at hok; cases hok
  | ok d =>
    rw [hd] at hok
    have hnames := of_decide_eq_true hok
    obtain ⟨r, hr, hiff, horder⟩ := written_data hd referencesApart_mapWithPlaces
    refine ⟨d, r, rfl, referencesApart_mapWithPlaces, hr, hnames, ?_, horder⟩
    intro n hn
    have hmem : .str n ∈ d.datasetNames := by
      rw [hnames]
      exact List.mem_map_of_mem hn
    obtain ⟨m, hm, hreference⟩ := (hiff _).1 hmem
    rwa [Json.str.inj hm]

end TopLevelSpec

end ChartLowering
