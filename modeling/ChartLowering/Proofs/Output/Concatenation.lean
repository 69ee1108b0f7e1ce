import ChartLowering.Proofs.Output.GeneratedNames
import ChartLowering.Proofs.Output.SizeSignals
import ChartLowering.Proofs.Sharing.Outline

/-
  Views beside each other.

  Where a view is enclosed, its signals are written as they are by itself, and its scales and guides
  too, but for the generated names (`Encloses.entry_eq`): a scale is written under one and a guide
  refers to one, unless they set it themselves, and these names are moved below that of the enclosed
  view. The range of a positional scale is a keyword and no name; it stays. A concatenation that says
  nothing about sharing writes no scales and guides of its own, so those of its document are those of
  its views (`concat_apart`).
-/

namespace ChartLowering

namespace ViewTree

open View Component

variable {config : Config} {settings : Settings} {t u : ViewTree} {l m : Located View}

/-! ## One entry -/

theorem explicit_of_outline {f : Family} {k j : Component} (h : k.outline f = j.outline f) :
    k.explicit = j.explicit := by
  have hexplicit := congrArg Component.explicit h
  exact hexplicit

/-- The name of a scale that sets none is moved with the component's. -/
theorem combine_nameBelow {k j : Component} {outer : String}
    (houtline : k.outline .scale = j.outline .scale) (hname : k.name = outer ++ "_" ++ j.name)
    (hnone : k.explicit.get? "name" = none) :
    k.combine = Fields.nameBelow outer .scale j.combine := by
  have hexplicit := explicit_of_outline houtline
  have himplicit := congrArg Component.implicit houtline
  simp only [outline, Family.isGuide, Bool.false_eq_true, if_false] at himplicit
  show (k.implicit.insert "name" (.str k.name)).overlay k.explicit =
    ((j.implicit.insert "name" (.str j.name)).overlay j.explicit).modify "name"
      (Json.nameBelow outer)
  rw [hexplicit] at hnone
  rw [OrderedMap.modify_overlay (OrderedMap.get?_insert_self ..) hnone,
    OrderedMap.modify_insert_self, himplicit, hexplicit, hname]
  rfl

theorem guideRest_eq {f : Family} (hguide : f.isGuide = true) {k j : Component}
    (houtline : k.outline f = j.outline f) : guideRest f k = guideRest f j := by
  have hexplicit := explicit_of_outline houtline
  have himplicit := congrArg (fun o => o.implicit.get? "orient") houtline
  simp only [outline, hguide, if_true, OrderedMap.get?_filterKeys] at himplicit
  have horient : k.get? "orient" = j.get? "orient" := by
    unfold Component.get? Layered.get? layers
    rw [hexplicit, OrderedMap.get?_insert_of_ne _ _ (by decide),
      OrderedMap.get?_insert_of_ne _ _ (by decide)]
    exact congrArg _ himplicit
  unfold guideRest
  rw [horient]

/-! ## Entries of an enclosed tree -/

namespace Encloses

variable {outer : String} {i : Nat} (h : Encloses outer i t u) (ht : IsResolved config settings t)
  (hu : IsResolved config settings u)
  (hapart : ∀ s : Slot, s.family ≠ .projection → t.label.components.get? s = none)
  (htplaced : t.Everywhere fun w => PlacedNames (w.map View.name))
  (huplaced : u.Everywhere fun w => PlacedNames (w.map View.name))

include h

omit ht hu hapart htplaced huplaced in
/-- What is gathered on the walk of an enclosed tree is what is gathered on its own. -/
theorem flatMap_walk_eq {δ : Type} {F G : Located View → List δ} {w : ViewTree}
    (hw : t.children[i]? = some w)
    (hFG : ∀ a l m, t.locate? (a ++ [i]) = some l → u.locate? a = some m → F l = G m) :
    (w.walk [t.label]).flatMap F = (u.walk []).flatMap G := by
  obtain ⟨w', hw', hshape⟩ := h.child
  obtain rfl := Option.some.inj (hw'.symm.trans hw)
  refine Tree.flatMap_walk_eq w' u _ _ hshape fun a l m hl hm => ?_
  rw [List.append_nil]
  refine hFG a _ m ?_ hm
  rw [Tree.locate?_append_singleton, hw, Option.bind_some, hl]
  rfl

include ht hu hapart htplaced huplaced

/-- A scale or a guide is written as it is by itself, but for the generated name. -/
theorem entry_eq {a : List Nat} (hl : t.locate? (a ++ [i]) = some l) (hm : u.locate? a = some m)
    {s : Slot} (hs : s.family ≠ .projection) {k j : Component}
    (hk : l.tree.label.components.get? s = some k) (hj : m.tree.label.components.get? s = some j)
    (hnone : ∀ key ∈ nameKeys s, k.explicit.get? key = none) (r r' : Registry) :
    l.tree.label.entry r l.above s k =
      (m.tree.label.entry r' m.above s j).map (Fields.nameBelow outer s.family) := by
  have houtline : k.outline s.family = j.outline s.family := by
    have hslot := h.outline_eq ht hu m (Tree.mem_walk_of_locate? hm) a l hm hl s hs
    rw [hk, hj] at hslot
    exact Option.some.inj hslot
  have hexplicit := explicit_of_outline houtline
  by_cases hguide : s.family.isGuide = true
  · rw [nameKeys_guide hguide, List.forall_mem_cons, List.forall_mem_singleton] at hnone
    obtain ⟨hscale, hreference⟩ := hnone
    obtain ⟨scale, hks, hkscale⟩ := (ht.settledAt hl).guideScale_eq hguide hk hscale
    rw [hexplicit] at hscale hreference
    obtain ⟨scale', hjs, hjscale⟩ := (hu.settledAt hm).guideScale_eq hguide hj hscale
    have hname := h.lookup_eq ht hu hapart htplaced huplaced hl hm hks hjs
    rw [entry_guide hguide, entry_guide hguide, hkscale, hjscale, hname, hexplicit,
      guideRest_eq hguide houtline]
    simp only [Except.map, Fields.nameBelow, nameKey_guide hguide]
    rw [OrderedMap.modify_overlay (OrderedMap.get?_cons_self ..) hreference,
      OrderedMap.modify_cons_self]
    rfl
  · obtain ⟨f, c⟩ := s
    cases f with
    | scale =>
      have hname : k.name = outer ++ "_" ++ j.name := by
        rw [(ht.settledAt hl).name_eq hk, (hu.settledAt hm).name_eq hj]
        exact h.componentName_eq hl hm ((hu.settledAt hm).mem_sharingOrder hj)
      exact congrArg Except.ok (combine_nameBelow houtline hname (hnone "name" List.mem_cons_self))
    | projection => exact absurd rfl hs
    | axis => exact absurd rfl hguide
    | legend => exact absurd rfl hguide

/-- A view's scales or guides are written as they are by itself, but for the generated names. -/
theorem liveEntries_eq (hnames : t.GeneratedNames) {a : List Nat}
    (hl : t.locate? (a ++ [i]) = some l) (hm : u.locate? a = some m) {f : Family}
    (hf : f ≠ .projection) (r r' : Registry) :
    l.tree.label.liveEntries r l.above f =
      (m.tree.label.liveEntries r' m.above f).map (Except.map (Fields.nameBelow outer f)) := by
  rw [(ht.settledAt hl).liveEntries_eq, (hu.settledAt hm).liveEntries_eq, List.map_filterMap]
  refine List.filterMap_congr fun s _ => ?_
  by_cases hsf : s.family = f
  · subst hsf
    have hslot := h.outline_eq ht hu m (Tree.mem_walk_of_locate? hm) a l hm hl s hf
    cases hj : m.tree.label.components.get? s with
    | none =>
      rw [hj, Option.map_none, Option.map_eq_none_iff] at hslot
      rw [hslot]
      rfl
    | some j =>
      rw [hj, Option.map_some, Option.map_eq_some_iff] at hslot
      obtain ⟨k, hk, -⟩ := hslot
      have hmerged := h.merged_eq ht hu hapart hf (componentAt?_eq_some.2 ⟨l, hl, hk⟩)
        (componentAt?_eq_some.2 ⟨m, hm, hj⟩)
      simp only [hk, Option.bind_some, hmerged, true_and]
      split
      · rename_i hlive
        have hnone := hnames l (Tree.mem_walk_of_locate? hl) (s, k)
          (OrderedMap.mem_entries_of_get? hk) (hmerged.trans hlive)
        rw [h.entry_eq ht hu hapart htplaced huplaced hl hm hf hk hj hnone r r', Option.map_some]
      · rfl
  · simp [hsf]

/-- All scales or guides of an enclosed tree are written as they are by itself, but for the generated
names. -/
theorem entries_eq (hnames : t.GeneratedNames) {w : ViewTree} (hw : t.children[i]? = some w)
    {f : Family} (hf : f ≠ .projection) (r : Registry) {r' : Registry} {d : Document}
    (hd : u.Compiled r' d) :
    (w.walk [t.label]).flatMap (fun l => l.tree.label.liveEntries r l.above f) =
      ((d.entries f).map (Fields.nameBelow outer f)).map Except.ok := by
  rw [h.flatMap_walk_eq hw fun a l m hl hm =>
      h.liveEntries_eq ht hu hapart htplaced huplaced hnames hl hm hf r r',
    ← List.map_flatMap]
  have hentries := hd.entries f
  unfold ViewTree.liveEntries at hentries
  rw [hentries, List.map_map, List.map_map]
  rfl

end Encloses

/-! ## Signals -/

/-- The live size signals of one view with their values. -/
def sizeSignals (config : Config) (settings : Settings) (l : Located View) : List SignalDef :=
  Dimension.all.filterMap fun d =>
    if l.tree.label.hasLiveSize l.above d then
      some ⟨l.tree.label.partName d.name, defaultSize config settings d l.tree⟩
    else none

theorem signals_eq_flatMap (t : ViewTree) :
    t.signals config settings = (t.walk []).flatMap (sizeSignals config settings) := rfl

theorem sizeSignals_of_unsized (h : l.tree.label.isSized = false) :
    sizeSignals config settings l = [] := by
  unfold sizeSignals hasLiveSize
  simp [h]

/-- The signals of an enclosed tree are those that it has by itself, but for their names. -/
theorem Encloses.signals_eq {outer : String} {i : Nat} (h : Encloses outer i t u)
    (ht : SizeScoped t) (hu : SizeScoped u)
    (htnumbered : t.Everywhere fun w => NumberedNames (w.map View.name))
    (hunumbered : u.Everywhere fun w => NumberedNames (w.map View.name)) {w : ViewTree}
    (hw : t.children[i]? = some w) :
    (w.walk [t.label]).flatMap (sizeSignals config settings) =
      (u.signals config settings).map (SignalDef.nameBelow outer) := by
  rw [signals_eq_flatMap, List.map_flatMap]
  refine h.flatMap_walk_eq hw fun a l m hl hm => ?_
  unfold sizeSignals
  rw [List.map_filterMap]
  refine List.filterMap_congr fun d _ => ?_
  rw [h.hasLiveSize_eq hl hm ht hu htnumbered hunumbered, h.defaultSize_eq hl hm,
    h.partName_eq hl hm (isOwnPart_dimension d).1]
  split <;> rfl

/-! ## Concatenations -/

/-- A concatenation that says nothing about sharing shares only projections. -/
theorem Settled.get?_concat_silent (h : Settled config settings l)
    (hform : l.tree.label.form = .concat .silent) {s : Slot} (hs : s.family ≠ .projection) :
    l.tree.label.components.get? s = none := by
  cases hk : l.tree.label.components.get? s with
  | none => rfl
  | some k =>
    obtain ⟨c, hc⟩ := Option.ne_none_iff_exists'.1 (channel_ne_none s (h.mem_sharingOrder hk) hs)
    obtain ⟨hmay, -⟩ := h.sharedFrom (fun u hu => nomatch hform.symm.trans hu) hk
    have hmode : l.tree.label.asMade.resolveMode s.family c = .independent := by
      show ((l.tree.label.form.resolve.mode? s.family c).or
        (l.tree.label.form.resolve.mode? .scale c)).getD (defaultMode l.tree.label.form.kind) = _
      rw [hform]
      cases s.family <;> rfl
    rw [hc] at hmay
    unfold mayShare at hmay
    simp [hmode, hs] at hmay

theorem Settled.liveEntries_concat_silent (h : Settled config settings l)
    (hform : l.tree.label.form = .concat .silent) {f : Family} (hf : f ≠ .projection)
    (r : Registry) : l.tree.label.liveEntries r l.above f = [] := by
  rw [h.liveEntries_eq, List.filterMap_eq_nil_iff]
  intro s _
  by_cases hsf : s.family = f
  · rw [h.get?_concat_silent hform (hsf ▸ hf), Option.bind_none]
  · simp [hsf]

end ViewTree

namespace TopLevelSpec

open ViewTree View

/-- Views beside each other do not influence each other. Take a concatenation that says nothing about
sharing, in which no view has a name of its own, no written scale sets its name and no written guide
its reference. Where it and each of its views by itself compile, its signals, scales, axes and legends
are those of its views in order, with the name of every signal and the generated name in every entry
moved below the position of the view. Every entry has such a name; that of a legend is where legends
of its channel refer to their scale. -/
theorem concat_apart {settings : Settings} {base : ViewBase} {children : List ViewSpec}
    {direction : Direction} {datasets : OrderedMap String (List Fields)} {config : Config}
    {d : Document} {docs : List Document}
    (hunnamed : (ViewSpec.concat base children direction .silent).Unnamed)
    (hnames : ((⟨.concat base children direction .silent, datasets, config⟩ :
      TopLevelSpec).resolved settings).GeneratedNames)
    (hd : (⟨.concat base children direction .silent, datasets, config⟩ :
      TopLevelSpec).compile settings = .ok d)
    (hdocs : children.map (fun v => (⟨v, datasets, config⟩ : TopLevelSpec).compile settings) =
      docs.map .ok) :
    d.signals = docs.zipIdx.flatMap (fun e =>
      e.1.signals.map (SignalDef.nameBelow (concatPosition e.2))) ∧
    (∀ f, f ≠ .projection → d.entries f = docs.zipIdx.flatMap fun e =>
      (e.1.entries f).map (Fields.nameBelow (concatPosition e.2) f)) ∧
    (∀ f, f ≠ .projection → ∀ e ∈ d.entries f, ∃ n, e.get? (Fields.nameKey f e) = some (.str n)) ∧
    ∀ e ∈ d.legends, ∃ c : Channel, Fields.nameKey .legend e = c.legendTarget := by
  have h := isResolved_resolved settings
    (⟨.concat base children direction .silent, datasets, config⟩ : TopLevelSpec)
  have hform := form_concat settings base children direction .silent datasets config
  have hlength : ((⟨.concat base children direction .silent, datasets, config⟩ :
      TopLevelSpec).resolved settings).children.length = docs.length := by
    rw [length_children_concat, ← List.length_map, hdocs, List.length_map]
  have hchild : ∀ (i : Nat) doc, docs[i]? = some doc → ∃ v, children[i]? = some v ∧ v.Unnamed ∧
      (⟨v, datasets, config⟩ : TopLevelSpec).compile settings = .ok doc := by
    intro i doc hdoc
    have hget := congrArg (fun results => results[i]?) hdocs
    simp only [List.getElem?_map, hdoc, Option.map_some] at hget
    obtain ⟨v, hv, hcompile⟩ := Option.map_eq_some_iff.1 hget
    exact ⟨v, hv, ViewSpec.unnamed_of_mem hunnamed (List.mem_of_getElem? hv), hcompile⟩
  obtain ⟨r, -, hcompiled⟩ := compiled_of_compile hd
  refine ⟨?signals, ?entries, fun f hf e he => hnames.exists_name h hcompiled hf he,
    fun e he => hcompiled.exists_legendTarget h he⟩
  case signals =>
    rw [signals_of_compile hd, signals_eq_flatMap]
    refine Tree.flatMap_walk_of_children ?_ hlength ?_
    · -- a concatenation has no size of its own
      refine sizeSignals_of_unsized ?_
      unfold isSized kind
      rw [hform]
      rfl
    · intro i w doc hw hdoc
      obtain ⟨v, hv, hvunnamed, hcompile⟩ := hchild i doc hdoc
      rw [(encloses_concat settings hunnamed hv).signals_eq (sizeScoped_resolved settings _)
        (sizeScoped_resolved settings _) (numbered_resolved settings hunnamed)
        (numbered_resolved settings (t := ⟨v, datasets, config⟩) hvunnamed) hw,
        signals_of_compile hcompile]
  case entries =>
    intro f hf
    have hroot := h.settled _ (Tree.self_mem_walk [] _)
    have hinjective : Function.Injective (Except.ok : Fields → Except CompileError Fields) :=
      fun _ _ => Except.ok.inj
    refine List.map_injective_iff.2 hinjective ?_
    rw [← hcompiled.entries f, List.map_flatMap]
    refine Tree.flatMap_walk_of_children ?_ hlength ?_
    · -- it shares none of its children's scales and guides
      exact hroot.liveEntries_concat_silent hform hf r.link
    · intro i w doc hw hdoc
      obtain ⟨v, hv, hvunnamed, hcompile⟩ := hchild i doc hdoc
      obtain ⟨r', -, hdoc⟩ := compiled_of_compile hcompile
      exact (encloses_concat settings hunnamed hv).entries_eq h
        (isResolved_resolved settings ⟨v, datasets, config⟩)
        (fun s hs => hroot.get?_concat_silent hform hs) (placed_resolved settings hunnamed)
        (placed_resolved settings (t := ⟨v, datasets, config⟩) hvunnamed) hnames hw hf r.link hdoc

/-- Coloured points, twice over each other, and alone. -/
def pointViews : List ViewSpec :=
  let cars : ViewBase := ⟨none, some ⟨.name "cars", none⟩, none, none⟩
  let points : UnitSpec := ⟨⟨"point", .empty⟩,
    ⟨[(.x, .one ⟨.field "speed", some .quantitative, none, .unset, .unset, .empty⟩),
      (.color, .one ⟨.field "origin", some .nominal, none, .unset, .unset, .empty⟩)]⟩, none⟩
  [.layer cars [.unit cars points, .unit cars points] .silent, .unit cars points]

/-- The points beside each other. -/
def pointsBeside : TopLevelSpec :=
  ⟨.concat ⟨none, none, none, none⟩ pointViews .horizontal .silent, .empty, .plain⟩

/-- Both views have their own sizes, scales, axis and legend, under their own names. -/
theorem concat_apart_pointsBeside : ∃ (d : Document) (docs : List Document),
    pointsBeside.compile .standard = .ok d ∧
    pointViews.map (fun v => (⟨v, .empty, .plain⟩ : TopLevelSpec).compile .standard) =
      docs.map .ok ∧
    docs.length = 2 ∧
    (∀ doc ∈ docs, doc.signalNames = ["width", "height"] ∧
      doc.names .scale = [.str "x", .str "color"] ∧
      doc.axes = [⟨[("scale", .str "x"), ("orient", .str "bottom")]⟩] ∧
      doc.legends = [⟨[("fill", .str "color")]⟩]) ∧
    d.signals = docs.zipIdx.flatMap (fun e =>
      e.1.signals.map (SignalDef.nameBelow (concatPosition e.2))) ∧
    ∀ f, f ≠ .projection → d.entries f = docs.zipIdx.flatMap fun e =>
      (e.1.entries f).map (Fields.nameBelow (concatPosition e.2) f) := by
  have hunnamed : pointsBeside.view.Unnamed := by decide
  have hnames : (pointsBeside.resolved .standard).GeneratedNames := by decide +kernel
  have hok : (pointsBeside.compile .standard).toOption.isSome = true := by decide +kernel
  have halone : (pointViews.mapM fun v =>
      (⟨v, .empty, .plain⟩ : TopLevelSpec).compile .standard).toOption.any (fun docs =>
        decide (docs.length = 2 ∧ ∀ doc ∈ docs, doc.signalNames = ["width", "height"] ∧
          doc.names .scale = [.str "x", .str "color"] ∧
          doc.axes = [⟨[("scale", .str "x"), ("orient", .str "bottom")]⟩] ∧
          doc.legends = [⟨[("fill", .str "color")]⟩])) = true := by
    decide +kernel
  cases hd : pointsBeside.compile .standard with
  | error cause => rw [hd] at hok; cases hok
  | ok d =>
    cases hdocs : pointViews.mapM fun v =>
        (⟨v, .empty, .plain⟩ : TopLevelSpec).compile .standard with
    | error cause => rw [hdocs] at halone; cases halone
    | ok docs =>
      rw [hdocs] at halone
      obtain ⟨hlength, hall⟩ := of_decide_eq_true halone
      have hdocs := mapM_eq_ok.1 hdocs
      obtain ⟨hsignals, hentries, -⟩ := concat_apart hunnamed hnames hd hdocs
      exact ⟨d, docs, rfl, hdocs, hlength, hall, hsignals, hentries⟩

end TopLevelSpec

end ChartLowering
