import ChartLowering.Proofs.Names.Areas
import ChartLowering.Proofs.Output.References

/-
  References to size signals.

  A document defines the live size signals of its tree (`mem_signalNames`), and refers to them in
  three places: groups that have a size, projections that are fit, and projections that are centred.
  A group has a size only if its own signals are live, and a projection that is fit fills the area of
  the unit from which it was promoted (`IsResolved.exists_area`), wherever it ended, so these
  references resolve. A projection is centred in the view in which it ended. That one has a size if it
  is a unit or a layer; the size of a facet or a concatenation is not defined, and a projection that
  ended there is left with a dangling reference (`size_signals`).
-/

namespace ChartLowering

theorem Dimension.mem_all (d : Dimension) : d ∈ Dimension.all := by cases d <;> decide

/-! ## Where size signals are written -/

/-- The names of width and height that a group is sized with. -/
def Mark.size? : Mark → Option (String × String)
  | .item .. => none
  | .group _ _ size _ => size

/-- The names of width and height that the groups of a document are sized with. -/
def Document.groupSizes (d : Document) : List (String × String) :=
  (Mark.nestedAll d.marks).filterMap Mark.size?

/-- The names of the signals that a document defines. -/
def Document.signalNames (d : Document) : List String := d.signals.map SignalDef.name

namespace View

/-- The area of a view as a projection is told to fill it. -/
def areaExpression (v : View) (above : List View) : Json :=
  Json.signalRef
    ("[" ++ v.sizeSignal above .width ++ ", " ++ v.sizeSignal above .height ++ "]")

/-- The centre of a view as a projection is told to move there. -/
def centreExpression (v : View) (above : List View) : Json :=
  Json.signalRef
    ("[" ++ v.sizeSignal above .width ++ " / 2, " ++ v.sizeSignal above .height ++ " / 2]")

variable {r : Registry} {v : View} {above : List View} {k : Component} {e : Fields}

/-- A projection that is fit fills the area of the view that its sides are those of. -/
theorem get?_size_of_fit {w : View} {outer : List View} (h : projectionFields r v above k = .ok e)
    (hfit : k.isFit = true)
    (hsize : k.size = some (Dimension.all.map fun d => Json.signalRef (w.sizeSignal outer d)))
    (hown : k.properties.get? "size" = none) : e.get? "size" = some (w.areaExpression outer) := by
  have harea : v.fitArea above k = (w.sizeSignal outer .width, w.sizeSignal outer .height) := by
    unfold fitArea
    rw [hsize]
    rfl
  rw [OrderedMap.get?_eq_none_iff] at hown
  unfold projectionFields at h
  split at h
  · rename_i hnone
    rw [Component.isFit, hnone] at hfit
    cases hfit
  · split at h
    · cases h
    · simp only [harea] at h
      obtain ⟨fit, -, rfl⟩ := map_eq_ok.1 h
      rw [OrderedMap.get?_overlay_of_notMem _ _ hown]
      rfl

/-- A projection that is not fit is centred in the view in which it ended. -/
theorem get?_translate_of_placed (h : projectionFields r v above k = .ok e)
    (hfit : k.isFit = false) (hown : k.properties.get? "translate" = none) :
    e.get? "translate" = some (v.centreExpression above) := by
  have hnone : k.data = none := Option.isNone_iff_eq_none.1 (Option.isSome_eq_false_iff.1 hfit)
  rw [OrderedMap.get?_eq_none_iff] at hown
  unfold projectionFields at h
  rw [hnone] at h
  rw [← Except.ok.inj h, OrderedMap.get?_overlay_of_notMem _ _ hown]
  rfl

end View

namespace ViewTree

open View

variable {config : Config} {settings : Settings} {t : ViewTree} {r : Registry}

/-! ## Groups -/

/-- A group of a view has a size only if both signals of the view are live. -/
theorem size?_concatGroup {v : View} {above : List View} {marks : List Mark}
    {size : String × String} (h : (v.concatGroup above marks).size? = some size) :
    (∀ d, v.hasLiveSize above d = true) ∧
      size = (v.sizeSignal above .width, v.sizeSignal above .height) := by
  unfold concatGroup at h
  rw [Mark.size?, Option.ite_none_right_eq_some] at h
  obtain ⟨hlive, hsize⟩ := h
  exact ⟨fun d => List.all_eq_true.1 hlive d (Dimension.mem_all d), (Option.some.inj hsize).symm⟩

theorem size?_unitMark (v : View) (above : List View) (u : UnitSpec) (data : Option String) :
    (v.unitMark above u data).size? = none := by
  obtain ⟨type, update, shape, h⟩ := unitMark_eq_item v above u data
  rw [h, Mark.size?]

/-- Every group that has a size has the live one of some view. -/
theorem mem_groupSizes {d : Document} (hd : d.marks = t.marks r []) {size : String × String}
    (h : size ∈ d.groupSizes) :
    ∃ l ∈ t.walk [], (∀ d, l.tree.label.hasLiveSize l.above d = true) ∧
      size = (l.tree.label.sizeSignal l.above .width, l.tree.label.sizeSignal l.above .height) := by
  unfold Document.groupSizes at h
  rw [hd] at h
  obtain ⟨m, hm, hsize⟩ := List.mem_filterMap.1 h
  obtain ⟨l, hl, hstands⟩ := standsFor_of_mem_marks hm
  cases hstands with
  | unit hform hm =>
    rw [hm, size?_unitMark] at hsize
    cases hsize
  | group hm =>
    rw [hm] at hsize
    exact ⟨l, hl, size?_concatGroup hsize⟩
  | cell hm =>
    rw [hm] at hsize
    cases hsize

/-! ## Signals -/

/-- The signals that are defined are the live sizes. -/
theorem mem_signals_name {n : String} :
    n ∈ (t.signals config settings).map SignalDef.name ↔ t.HasSize n := by
  unfold signals HasSize
  rw [List.mem_map]
  constructor
  · rintro ⟨s, hs, rfl⟩
    obtain ⟨l, hl, hs⟩ := List.mem_flatMap.1 hs
    obtain ⟨d, -, hs⟩ := List.mem_filterMap.1 hs
    simp only at hs
    split at hs
    · rename_i hlive
      obtain rfl := Option.some.inj hs
      exact ⟨l, hl, d, hlive, rfl⟩
    · cases hs
  · rintro ⟨l, hl, d, hlive, rfl⟩
    refine ⟨⟨l.tree.label.partName d.name, defaultSize config settings d l.tree⟩, ?_, rfl⟩
    refine List.mem_flatMap.2 ⟨l, hl, List.mem_filterMap.2 ⟨d, Dimension.mem_all d, ?_⟩⟩
    simp only
    rw [if_pos hlive]

theorem signals_assemble {result : Document × Registry}
    (h : t.assemble config settings r = .ok result) :
    result.1.signals = t.signals config settings := by
  unfold assemble at h
  obtain ⟨lists, -, h⟩ := bind_eq_ok.1 h
  obtain rfl := Except.ok.inj h
  rfl

end ViewTree

namespace TopLevelSpec

open ViewTree View

theorem signals_of_compile {settings : Settings} {t : TopLevelSpec} {d : Document}
    (hd : t.compile settings = .ok d) :
    d.signals = (t.resolved settings).signals t.config settings := by
  unfold compile at hd
  obtain ⟨result, hresult, rfl⟩ := map_eq_ok.1 hd
  unfold compileWithData at hresult
  obtain ⟨r, -, hassemble⟩ := bind_eq_ok.1 hresult
  exact signals_assemble hassemble

/-- The signals of a document are the live sizes of the resolved tree. -/
theorem mem_signalNames {settings : Settings} {t : TopLevelSpec} {d : Document}
    (hd : t.compile settings = .ok d) {n : String} :
    n ∈ d.signalNames ↔ (t.resolved settings).HasSize n := by
  unfold Document.signalNames
  rw [signals_of_compile hd]
  exact mem_signals_name

/-- Every size signal that a group or a fit projection is written with is defined; the latter are
those of a unit at or below the view in which the projection ended. A projection that is not fit is
centred in that view, by signals that are defined if it is a unit or a layer. If it is a facet or a
concatenation and no view has a name of its own, they are not. -/
theorem size_signals {settings : Settings} {t : TopLevelSpec} {d : Document}
    (hd : t.compile settings = .ok d) :
    (∀ size ∈ d.groupSizes, size.1 ∈ d.signalNames ∧ size.2 ∈ d.signalNames) ∧
    ∃ r, t.registered settings = .ok r ∧
      (∀ e ∈ d.projections, ∃ l ∈ (t.resolved settings).walk [], ∃ k,
        l.tree.label.component? .projection none = some k ∧ k.merged = false ∧
          projectionFields r.link l.tree.label l.above k = .ok e) ∧
      ∀ l ∈ (t.resolved settings).walk [], ∀ k,
        l.tree.label.component? .projection none = some k → k.merged = false →
        ∃ e ∈ d.projections, projectionFields r.link l.tree.label l.above k = .ok e ∧
          (k.isFit = true → k.properties.get? "size" = none →
            ∃ m ∈ l.tree.walk l.above, ∃ u, m.tree.label.form = .unit u ∧
              e.get? "size" = some (m.tree.label.areaExpression m.above) ∧
              ∀ dim, m.tree.label.sizeSignal m.above dim ∈ d.signalNames) ∧
          (k.isFit = false → k.properties.get? "translate" = none →
            e.get? "translate" = some (l.tree.label.centreExpression l.above) ∧
            (l.tree.label.isSized = true →
              ∀ dim, l.tree.label.sizeSignal l.above dim ∈ d.signalNames) ∧
            (t.view.Unnamed → l.tree.label.isSized = false →
              ∀ dim, l.tree.label.sizeSignal l.above dim ∉ d.signalNames)) := by
  have h := isResolved_resolved settings t
  have hscoped := sizeScoped_resolved settings t
  have hsignals : ∀ n, n ∈ d.signalNames ↔ (t.resolved settings).HasSize n :=
    fun n => mem_signalNames hd
  have hsized : ∀ l ∈ (t.resolved settings).walk [], l.tree.label.isSized = true →
      ∀ dim, l.tree.label.sizeSignal l.above dim ∈ d.signalNames :=
    fun l hl hs dim => (hsignals _).2 (hscoped.hasSize_sizeSignal hl hs dim)
  obtain ⟨r, hr, hcompiled⟩ := compiled_of_compile hd
  refine ⟨?groups, r, hr, ?entries, ?projections⟩
  case groups =>
    intro size hsize
    obtain ⟨l, hl, hlive, rfl⟩ := mem_groupSizes hcompiled.marks hsize
    have hs : l.tree.label.isSized = true := (Bool.and_eq_true_iff.1 (hlive .width)).1
    exact ⟨hsized l hl hs .width, hsized l hl hs .height⟩
  case entries =>
    intro e he
    obtain ⟨l, hl, c, k, hk, hlive, hentry⟩ := (hcompiled.mem_entries h (f := .projection)).1 he
    obtain ⟨-, rfl⟩ := Slot.mk.inj (slot_of_projection _ ((h.settled l hl).mem_sharingOrder hk) rfl)
    exact ⟨l, hl, k, hk, hlive, hentry⟩
  case projections =>
    intro l hl k hk hlive
    obtain ⟨e, hentry, he⟩ := hcompiled.exists_entry h hl (s := ⟨.projection, none⟩) hk hlive
    refine ⟨e, he, hentry, ?_, ?_⟩
    · intro hfit hown
      have hdata : k.data ≠ none := Option.isSome_iff_ne_none.1 hfit
      rw [Ne, h.data_eq_none_iff l hl _ k hk] at hdata
      obtain ⟨m, hm, u, hu, hsize⟩ := h.exists_area l hl _ k hk hdata
      exact ⟨m, hm, u, hu, get?_size_of_fit hentry hfit hsize hown,
        hsized m (Tree.mem_walk_of_mem_walk hl hm) (isSized_of_unit hu)⟩
    · intro hfit hown
      refine ⟨get?_translate_of_placed hentry hfit hown, hsized l hl, ?_⟩
      intro hunnamed hs dim hmem
      exact hscoped.not_hasSize_sizeSignal (numbered_resolved settings hunnamed) hl hs dim
        ((hsignals _).1 hmem)

/-- Two maps over each other, fit to their rows, beside one in a projection that is placed by hand. -/
def mapsBeside : TopLevelSpec :=
  let bare : ViewBase := ⟨none, none, none, none⟩
  ⟨.concat bare [.layer ⟨none, some ⟨.name "land", none⟩, none, none⟩
      [.unit bare rowsMap, .unit bare rowsMap] .silent, .unit bare mapUnit] .horizontal .silent,
    .empty, .plain⟩

/-- Both groups are sized by defined signals, the layer's projection fills the area of a map in it,
and that of the map beside it is centred there. -/
theorem size_signals_mapsBeside : ∃ d l k m j, mapsBeside.compile .standard = .ok d ∧
    d.groupSizes = [("concat_0_width", "concat_0_height"), ("concat_1_width", "concat_1_height")] ∧
    (∀ size ∈ d.groupSizes, size.1 ∈ d.signalNames ∧ size.2 ∈ d.signalNames) ∧
    (mapsBeside.resolved .standard).locate? [0] = some l ∧
    l.tree.label.component? .projection none = some k ∧ k.isFit = true ∧
    (∃ e ∈ d.projections, ∃ n ∈ l.tree.walk l.above,
      e.get? "size" = some (n.tree.label.areaExpression n.above) ∧
        ∀ dim, n.tree.label.sizeSignal n.above dim ∈ d.signalNames) ∧
    (mapsBeside.resolved .standard).locate? [1] = some m ∧
    m.tree.label.component? .projection none = some j ∧ j.isFit = false ∧
    ∃ e ∈ d.projections,
      e.get? "translate" = some (m.tree.label.centreExpression m.above) ∧
        ∀ dim, m.tree.label.sizeSignal m.above dim ∈ d.signalNames := by
  have hgroups : (mapsBeside.compile .standard).toOption.map Document.groupSizes =
      some [("concat_0_width", "concat_0_height"), ("concat_1_width", "concat_1_height")] := by
    decide +kernel
  have hboth : ((mapsBeside.resolved .standard).locate? [0]).any (fun l =>
        (l.tree.label.component? .projection none).any fun k =>
          decide (k.merged = false ∧ k.isFit = true ∧ k.properties.get? "size" = none)) = true ∧
      ((mapsBeside.resolved .standard).locate? [1]).any (fun l => l.tree.label.isSized &&
        (l.tree.label.component? .projection none).any fun k =>
          decide (k.merged = false ∧ k.isFit = false ∧ k.properties.get? "translate" = none)) =
            true := by
    decide +kernel
  obtain ⟨l, hl, hfit⟩ := (Option.any_eq_true _ _).1 hboth.1
  obtain ⟨m, hm, hplaced⟩ := (Option.any_eq_true _ _).1 hboth.2
  obtain ⟨hunit, hplaced⟩ := Bool.and_eq_true_iff.1 hplaced
  obtain ⟨k, hk, hkfit⟩ := (Option.any_eq_true _ _).1 hfit
  obtain ⟨j, hj, hjplaced⟩ := (Option.any_eq_true _ _).1 hplaced
  obtain ⟨hklive, hkfit, hksize⟩ := of_decide_eq_true hkfit
  obtain ⟨hjlive, hjplaced, hjtranslate⟩ := of_decide_eq_true hjplaced
  cases hd : mapsBeside.compile .standard with
  | error cause => rw [hd] at hgroups; cases hgroups
  | ok d =>
    rw [hd] at hgroups
    obtain ⟨hsignals, r, -, -, hprojections⟩ := size_signals hd
    obtain ⟨e, he, -, harea, -⟩ := hprojections l (Tree.mem_walk_of_locate? hl) k hk hklive
    obtain ⟨e', he', -, -, hcentre⟩ := hprojections m (Tree.mem_walk_of_locate? hm) j hj hjlive
    obtain ⟨n, hn, -, -, hsize, hnsignals⟩ := harea hkfit hksize
    obtain ⟨htranslate, hmsignals, -⟩ := hcentre hjplaced hjtranslate
    exact ⟨d, l, k, m, j, rfl, Option.some.inj hgroups, hsignals, hl, hk, hkfit,
      ⟨e, he, n, hn, hsize, hnsignals⟩, hm, hj, hjplaced, e', he', htranslate, hmsignals hunit⟩

/-! ## Projections of concatenations -/

/-- A concatenation of one map in a projection that is placed by hand. -/
def loneMap : TopLevelSpec :=
  let bare : ViewBase := ⟨none, none, none, none⟩
  ⟨.concat bare [.unit bare mapUnit] .horizontal .silent, .empty, .plain⟩

theorem accepted_loneMap : loneMap.Accepted :=
  ⟨.obj [("hconcat", .arr [.obj [("mark", .str "geoshape"),
    ("projection", .obj [("scale", .int 100)])]])], by decide +kernel, rfl⟩

/-- The projection ends in the concatenation and is centred by signals that are not defined. -/
theorem size_signal_dangles : loneMap.Accepted ∧ ∃ d, loneMap.compile .standard = .ok d ∧
    (∃ k, (loneMap.resolved .standard).label.component? .projection none = some k ∧
      k.merged = false ∧ k.isFit = false ∧ k.properties.get? "translate" = none) ∧
    (∃ e ∈ d.projections,
      e.get? "translate" = some (Json.signalRef "[width / 2, height / 2]")) ∧
    "width" ∉ d.signalNames ∧ "height" ∉ d.signalNames := by
  have hplaced : ((loneMap.resolved .standard).label.component? .projection none).map (fun k =>
      (k.merged, k.isFit, k.properties.get? "translate")) = some (false, false, none) := by
    decide +kernel
  have hok : (loneMap.compile .standard).toOption.any (fun d =>
      decide (∃ e ∈ d.projections,
        e.get? "translate" = some (Json.signalRef "[width / 2, height / 2]")) &&
        decide ("width" ∉ d.signalNames ∧ "height" ∉ d.signalNames)) = true := by
    decide +kernel
  obtain ⟨k, hk, hkplaced⟩ := Option.map_eq_some_iff.1 hplaced
  simp only [Prod.mk.injEq] at hkplaced
  refine ⟨accepted_loneMap, ?_⟩
  cases hd : loneMap.compile .standard with
  | error cause => rw [hd] at hok; cases hok
  | ok d =>
    rw [hd] at hok
    have hboth := Bool.and_eq_true_iff.1 hok
    exact ⟨d, rfl, ⟨k, hk, hkplaced⟩, of_decide_eq_true hboth.1, of_decide_eq_true hboth.2⟩

end TopLevelSpec

end ChartLowering
