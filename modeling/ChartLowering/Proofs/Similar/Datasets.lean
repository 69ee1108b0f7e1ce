import ChartLowering.Proofs.Dataset.Linking
import ChartLowering.Proofs.Dataset.Registration
import ChartLowering.Proofs.Similar.Outcome
import ChartLowering.Proofs.Similar.Trees

/-
  Datasets in lockstep.

  Two compiles of alike specifications look for root datasets in the same order. If definitions are
  found again in the one run exactly when those that correspond to them are found again in the other
  (`RootLaw`), then both make root datasets at the same places, under the same names
  (`registerViews_alike`). Everything else reads of a root dataset nothing but its name, so it is the
  same in both runs (`Registry.outline`, `Registry.Alike.link`).
-/

namespace ChartLowering

/-! ## What is registered of views -/

namespace View

theorem hasOutput_sketch (v : View) (p : Place) : (v.sketch p).hasOutput = v.hasOutput := by
  unfold hasOutput
  rw [kind_sketch]
  show ((v.data.map _).isSome && (_ || _ || (v.ownData.map _).isSome)) = _
  rw [Option.isSome_map, Option.isSome_map]

/-- Views with one sketch and corresponding data have outputs of corresponding data. -/
theorem outputData?_alike {D : DataSpec → DataSpec → Prop} {p : Place} {v w : View}
    (h : v.sketch p = w.sketch p) (hdata : v.SameData D w) :
    Option.Rel D v.outputData? w.outputData? := by
  have houtput : v.hasOutput = w.hasOutput := by
    rw [← v.hasOutput_sketch p, h, hasOutput_sketch]
  unfold outputData?
  rw [houtput]
  split
  · exact hdata.read
  · exact .none

theorem outputTransforms_sketch (v : View) (p : Place) (index : Nat) :
    (v.sketch p).outputTransforms index = v.outputTransforms index := by
  have hform : (v.sketch p).form = v.form.sketch p := rfl
  unfold outputTransforms
  rw [hform]
  cases v.form with
  | layer | facet | concat => rfl
  | unit u =>
    show (v.sketch p).transforms (u.sketch p) index = v.transforms u index
    unfold transforms UnitSpec.extractions UnitSpec.projections
    rw [component?_sketch, UnitSpec.geometryRoles_sketch, UnitSpec.coordinatePairs_sketch]
    cases v.component? .projection none <;> rfl

end View

/-! ## What is read of root datasets -/

/-- A root dataset of which only the name is known. -/
def Source.outline (s : Source) : Source := ⟨s.name, .null⟩

def Pipeline.outline (q : Pipeline) : Pipeline := ⟨q.source.map Source.outline, q.transforms⟩

namespace Registry

/-- Datasets without the root datasets and what else they are made of. -/
def outline (r : Registry) : Registry :=
  { r with
    declared := .empty
    sources := .empty
    outputs := r.outputs.mapValues Pipeline.outline
    derived := r.derived.mapValues Pipeline.outline }

theorem outline_register (r : Registry) (name : String) (q : Pipeline) :
    (r.register name q).outline = r.outline.register name q.outline := by
  unfold register outline
  rw [OrderedMap.mapValues_insert]
  rfl

theorem outline_linkOutput (owners : OrderedMap String String) (r : Registry) (name : String)
    (q : Pipeline) : linkOutput (owners, r.outline) (name, q.outline) =
      ((linkOutput (owners, r) (name, q)).1, (linkOutput (owners, r) (name, q)).2.outline) := by
  obtain ⟨source, transforms⟩ := q
  unfold linkOutput Pipeline.outline
  cases source with
  | none => rfl
  | some s =>
    cases transforms with
    | nil => rfl
    | cons t ts =>
      have hchain : chainFingerprint s.outline (t :: ts) = chainFingerprint s (t :: ts) := rfl
      simp only [Option.map_some, hchain]
      cases owners.get? (chainFingerprint s (t :: ts)) with
      | some owner => rfl
      | none => simp only [outline, OrderedMap.mapValues_insert]; rfl

/-- Linking reads of the root datasets their names only. -/
theorem outline_link (r : Registry) : r.link.outline = r.outline.link := by
  have hrun : ∀ (outputs : List (String × Pipeline)) (owners : OrderedMap String String)
      (q : Registry), ((outputs.map fun e => (e.1, e.2.outline)).foldl linkOutput
        (owners, q.outline)).2 = (outputs.foldl linkOutput (owners, q)).2.outline := by
    intro outputs
    induction outputs with
    | nil => exact fun _ _ => rfl
    | cons e rest ih =>
      intro owners q
      rw [List.map_cons, List.foldl_cons, List.foldl_cons, outline_linkOutput]
      exact ih _ _
  exact (hrun r.outputs.entries .empty r).symm

theorem wanted_outline (r : Registry) :
    r.outline.wanted = r.wanted.map fun e => (e.1, e.2.outline) :=
  List.filter_map

/-- The sources that wanted datasets need are named in the outline. -/
theorem neededSources_outline (r : Registry) : r.outline.neededSources = r.neededSources := by
  unfold neededSources
  rw [wanted_outline, List.filterMap_map]
  refine List.filterMap_congr fun e _ => ?_
  show (e.2.source.map Source.outline).map Source.name = _
  rw [Option.map_map]
  rfl

end Registry

/-! ## Corresponding root datasets -/

/-- Two root datasets of one name whose contents correspond. -/
structure Source.Alike (J : Json → Json → Prop) (s s' : Source) : Prop where
  name : s.name = s'.name
  dataset : J s.dataset s'.dataset

theorem Source.Alike.mk_name {J : Json → Json → Prop} (name : String) {a b : Json} (h : J a b) :
    Source.Alike J ⟨name, a⟩ ⟨name, b⟩ :=
  ⟨rfl, h⟩

/-- Two datasets as they are written out: root datasets that correspond, or one derived dataset. -/
inductive DatasetDef.Alike (J : Json → Json → Prop) : DatasetDef → DatasetDef → Prop where
  | root {a b : Json} (h : J a b) : Alike J (.root a) (.root b)
  | derived (name source : String) (transforms : List Json) :
    Alike J (.derived name source transforms) (.derived name source transforms)

theorem DatasetDef.Alike.of_derived {J : Json → Json → Prop} {d : DatasetDef}
    (h : ∃ name source transforms, d = .derived name source transforms) : d.Alike J d := by
  obtain ⟨name, source, transforms, rfl⟩ := h
  exact .derived name source transforms

open Registry

/-- How the root datasets of two runs correspond: `D` relates definitions, `Q` keys and `J` datasets,
for definitions of which `A` and `B` hold in the one run and in the other. -/
structure RootLaw (D : DataSpec → DataSpec → Prop) (A B : DataSpec → Prop)
    (Q : SourceKey → SourceKey → Prop) (J : Json → Json → Prop) : Prop where
  name?_eq : ∀ d e, D d e → d.name? = e.name?
  isTooDeep_eq : ∀ d e, D d e → d.isTooDeep = e.isTooDeep
  /-- Definitions that correspond are found by keys that do. -/
  key : ∀ d e, D d e → (d.name? = none → A d ∧ B e) → Q (sourceKey d) (sourceKey e)
  /-- A key is met again when the corresponding one is. -/
  key_eq_iff : ∀ k k' l l', Q k k' → Q l l' → (k = l ↔ k' = l')
  /-- Definitions without a name describe root datasets that correspond. -/
  root : ∀ d e, D d e → d.name? = none → ∀ (declared declared' : OrderedMap String Json) name,
    J (.obj (("name", .str name) :: rootFields declared d))
      (.obj (("name", .str name) :: rootFields declared' e))

namespace Registry

/-- Two registries that are the same but for their root datasets, which correspond. -/
structure Alike (Q : SourceKey → SourceKey → Prop) (J : Json → Json → Prop) (r r' : Registry) :
    Prop where
  outline : r.outline = r'.outline
  named : ∀ n, SameOutcome (Source.Alike J) (r.namedSource n) (r'.namedSource n)
  sources : List.Forall₂ (fun e e' => Q e.1 e'.1 ∧ e.2.Alike J e'.2) r.sources.entries r'.sources.entries

variable {D : DataSpec → DataSpec → Prop} {A B : DataSpec → Prop}
  {Q : SourceKey → SourceKey → Prop} {J : Json → Json → Prop} {r r' : Registry}

theorem Alike.register (h : Alike Q J r r') (name : String) {q q' : Pipeline}
    (hq : q.outline = q'.outline) : Alike Q J (r.register name q) (r'.register name q') where
  outline := by rw [outline_register, outline_register, h.outline, hq]
  named := h.named
  sources := h.sources

theorem Alike.note (h : Alike Q J r r') (names : List String) :
    Alike Q J (r.note names) (r'.note names) where
  outline := congrArg (fun q : Registry => q.note names) h.outline
  named := h.named
  sources := h.sources

/-- Linking changes neither the root datasets nor what they are made of. -/
theorem link_sources (r : Registry) :
    r.link.sources = r.sources ∧ ∀ n, r.link.namedSource n = r.namedSource n := by
  obtain ⟨concrete, derived, hlink⟩ := link_frame r
  rw [hlink]
  exact ⟨rfl, fun _ => rfl⟩

theorem Alike.link (h : Alike Q J r r') : Alike Q J r.link r'.link where
  outline := by rw [outline_link, outline_link, h.outline]
  named := fun n => by
    rw [(link_sources r).2, (link_sources r').2]
    exact h.named n
  sources := by
    rw [(link_sources r).1, (link_sources r').1]
    exact h.sources

/-- One more pair of root datasets that correspond. -/
theorem Alike.addSource (h : Alike Q J r r') {k k' : SourceKey} (hk : Q k k')
    (hnone : r.sources.get? k = none) (hnone' : r'.sources.get? k' = none) {s s' : Source}
    (hs : s.Alike J s') (numbered : Nat) :
    Alike Q J { r with sources := r.sources.insert k s, numbered := numbered }
      { r' with sources := r'.sources.insert k' s', numbered := numbered } where
  outline := congrArg (fun q : Registry => { q with numbered := numbered }) h.outline
  named := h.named
  sources := by
    show List.Forall₂ _ (r.sources.insert k s).entries (r'.sources.insert k' s').entries
    rw [OrderedMap.entries_insert_of_notMem ((OrderedMap.get?_eq_none_iff _ _).1 hnone),
      OrderedMap.entries_insert_of_notMem ((OrderedMap.get?_eq_none_iff _ _).1 hnone')]
    exact List.rel_append h.sources (.cons ⟨hk, hs⟩ .nil)

/-! ## Writing datasets out -/

/-- The derived datasets that are written out. -/
def emitDerived (r : Registry) (assigned : Nat → String → String) : List DatasetDef :=
  r.wanted.filterMap fun (name, q) =>
    q.source.map fun s => .derived name s.name (q.transforms.flatMap (·.emit assigned))

theorem emitDerived_outline (r : Registry) (assigned : Nat → String → String) :
    r.outline.emitDerived assigned = r.emitDerived assigned := by
  unfold emitDerived
  rw [wanted_outline, List.filterMap_map]
  refine List.filterMap_congr fun e _ => ?_
  show (e.2.source.map Source.outline).map _ = _
  rw [Option.map_map]
  rfl

/-- Registries that are alike write out datasets that are. -/
theorem Alike.emit (h : Alike Q J r r') (assigned : Nat → String → String) :
    List.Forall₂ (DatasetDef.Alike J) (r.emit assigned) (r'.emit assigned) := by
  have hconsulted : r.isConsulted = r'.isConsulted :=
    (congrArg (fun q : Registry => q.isConsulted) h.outline :)
  have hneeded : r.neededSources = r'.neededSources := by
    rw [← neededSources_outline, h.outline, neededSources_outline]
  have hderived : r.emitDerived assigned = r'.emitDerived assigned := by
    rw [← emitDerived_outline, h.outline, emitDerived_outline]
  have hroots : List.Forall₂ (DatasetDef.Alike J)
      ((r.sources.values.filter fun s => r.isConsulted s.name || r.neededSources.contains s.name).map
        fun s => .root s.dataset)
      ((r'.sources.values.filter fun s =>
        r'.isConsulted s.name || r'.neededSources.contains s.name).map fun s => .root s.dataset) := by
    rw [hconsulted, hneeded]
    have hsources := h.sources
    unfold OrderedMap.values
    generalize r.sources.entries = l, r'.sources.entries = l' at hsources
    induction hsources with
    | nil => exact .nil
    | @cons e e' rest rest' he _ ih =>
      rw [List.map_cons, List.map_cons, List.filter_cons, List.filter_cons, he.2.name]
      split
      · exact .cons (.root he.2.dataset) ih
      · exact ih
  refine List.rel_append hroots ?_
  show List.Forall₂ _ (r.emitDerived assigned) (r'.emitDerived assigned)
  rw [hderived]
  refine List.forall₂_same.2 fun d hd => .of_derived ?_
  obtain ⟨e, -, he⟩ := List.mem_filterMap.1 hd
  obtain ⟨s, -, rfl⟩ := Option.map_eq_some_iff.1 he
  exact ⟨_, _, _, rfl⟩

/-! ## Looking for a root dataset -/

theorem sourceFor_tooDeep {d : DataSpec} (h : d.isTooDeep = true) (r : Registry) :
    r.sourceFor d = .error .tooDeep := by
  unfold sourceFor
  simp only [h, if_true]

/-- The root dataset of a definition with a name. -/
theorem sourceFor_named {d : DataSpec} (hdeep : d.isTooDeep = false) {n : String}
    (hd : d.name? = some n) (r : Registry) : r.sourceFor d =
      match r.sources.get? (sourceKey d) with
      | some s => .ok (s, r)
      | none => (r.namedSource n).map fun s =>
          (s, { r with sources := r.sources.insert (sourceKey d) s, numbered := r.numbered }) := by
  unfold DataSpec.name? at hd
  unfold sourceFor
  simp only [hdeep, Bool.false_eq_true, if_false]
  cases r.sources.get? (sourceKey d) with
  | some s => rfl
  | none =>
    cases horigin : d.origin with
    | name m =>
      rw [horigin] at hd
      obtain rfl := Option.some.inj hd
      rfl
    | values rows | url address => rw [horigin] at hd; cases hd

/-- The root dataset of a definition without a name, which is found again or made anew. -/
def unnamedRoot (r : Registry) (d : DataSpec) : Source × Registry :=
  match r.sources.get? (sourceKey d) with
  | some s => (s, r)
  | none =>
    let s : Source := ⟨numberedName r.numbered,
      .obj (("name", .str (numberedName r.numbered)) :: rootFields r.declared d)⟩
    (s, { r with sources := r.sources.insert (sourceKey d) s, numbered := r.numbered + 1 })

theorem sourceFor_unnamed {d : DataSpec} (hdeep : d.isTooDeep = false) (hd : d.name? = none)
    (r : Registry) : r.sourceFor d = .ok (r.unnamedRoot d) := by
  unfold DataSpec.name? at hd
  unfold sourceFor unnamedRoot rootFields
  simp only [hdeep, Bool.false_eq_true, if_false]
  cases r.sources.get? (sourceKey d) with
  | some s => rfl
  | none =>
    cases horigin : d.origin with
    | name m => rw [horigin] at hd; cases hd
    | values rows | url address => rfl

section Law

variable (law : RootLaw D A B Q J)

include law

/-- The root datasets that are found by corresponding keys, if any, correspond. -/
theorem get?_alike (h : Alike Q J r r') {k k' : SourceKey} (hk : Q k k') :
    r.sources.get? k = none ∧ r'.sources.get? k' = none ∨
      ∃ s s', r.sources.get? k = some s ∧ r'.sources.get? k' = some s' ∧ s.Alike J s' := by
  obtain ⟨-, -, hsources⟩ := h
  unfold OrderedMap.get?
  generalize r.sources.entries = l, r'.sources.entries = l' at hsources
  induction hsources with
  | nil => exact .inl ⟨rfl, rfl⟩
  | @cons e e' rest rest' he _ ih =>
    have hiff := law.key_eq_iff k k' e.1 e'.1 hk he.1
    rw [OrderedMap.find?, OrderedMap.find?]
    by_cases hke : k = e.1
    · rw [if_pos hke, if_pos (hiff.1 hke)]
      exact .inr ⟨_, _, rfl, rfl, he.2⟩
    · rw [if_neg hke, if_neg fun h => hke (hiff.2 h)]
      exact ih

/-- Definitions that correspond have root datasets that do, found again or made anew. -/
theorem Alike.sourceFor (h : Alike Q J r r') {d e : DataSpec} (hd : D d e)
    (hseen : (∃ x, r.sourceFor d = .ok x) → (∃ x, r'.sourceFor e = .ok x) → A d ∧ B e) :
    SameOutcome (fun x x' => x.1.Alike J x'.1 ∧ Alike Q J x.2 x'.2) (r.sourceFor d) (r'.sourceFor e) := by
  have hnumbered : r.numbered = r'.numbered :=
    (congrArg (fun q : Registry => q.numbered) h.outline :)
  have hname' := law.name?_eq d e hd
  have hdeep' := law.isTooDeep_eq d e hd
  cases hdeep : d.isTooDeep with
  | true =>
    rw [sourceFor_tooDeep hdeep, sourceFor_tooDeep (hdeep'.symm.trans hdeep)]
    exact .error _
  | false =>
    rw [hdeep] at hdeep'
    cases hname : d.name? with
    | some n =>
      rw [hname] at hname'
      have hk := law.key d e hd (by rw [hname]; exact nofun)
      rw [sourceFor_named hdeep hname, sourceFor_named hdeep'.symm hname'.symm]
      rcases get?_alike law h hk with ⟨hs, hs'⟩ | ⟨s, s', hs, hs', hss⟩
      · rw [hs, hs', ← hnumbered]
        exact (h.named n).map fun s s' hss => ⟨hss, h.addSource hk hs hs' hss _⟩
      · rw [hs, hs']
        exact .ok ⟨hss, h⟩
    | none =>
      rw [hname] at hname'
      have hfound := sourceFor_unnamed hdeep hname r
      have hfound' := sourceFor_unnamed hdeep'.symm hname'.symm r'
      have hk := law.key d e hd fun _ => hseen ⟨_, hfound⟩ ⟨_, hfound'⟩
      rw [hfound, hfound']
      unfold unnamedRoot
      rcases get?_alike law h hk with ⟨hs, hs'⟩ | ⟨s, s', hs, hs', hss⟩
      · rw [hs, hs', ← hnumbered]
        have hroot := Source.Alike.mk_name (numberedName r.numbered)
          (law.root d e hd hname r.declared r'.declared (numberedName r.numbered))
        exact .ok ⟨hroot, h.addSource hk hs hs' hroot _⟩
      · rw [hs, hs']
        exact .ok ⟨hss, h⟩

/-! ## Registering the views -/

/-- The definitions that root datasets are found for when views register their outputs, up to the
first one that has none. -/
def lookedUp (r : Registry) (index : Nat) : List View → List DataSpec
  | [] => []
  | v :: rest =>
    match v.registerOutput r index with
    | .ok q => v.outputData?.toList ++ q.lookedUp (index + 1) rest
    | .error _ => []

/-- Views with one sketch register outputs that correspond. -/
theorem Alike.registerOutput (h : Alike Q J r r') {p : Place} {v w : View}
    (hsketch : v.sketch p = w.sketch p) (hdata : v.SameData D w) (index : Nat)
    (hseen : ∀ q q', v.registerOutput r index = .ok q → w.registerOutput r' index = .ok q' →
      (∀ d ∈ v.outputData?, A d) ∧ ∀ e ∈ w.outputData?, B e) :
    SameOutcome (Alike Q J) (v.registerOutput r index) (w.registerOutput r' index) := by
  have hname : v.mainOutput = w.mainOutput := by
    unfold View.mainOutput View.partName
    rw [View.name_eq hsketch]
  have htransforms : v.outputTransforms index = w.outputTransforms index := by
    rw [← v.outputTransforms_sketch p, hsketch, View.outputTransforms_sketch]
  have houtput := View.outputData?_alike hsketch hdata
  rw [View.registerOutput_eq, View.registerOutput_eq] at hseen ⊢
  generalize v.outputData? = d, w.outputData? = e at houtput hseen ⊢
  cases houtput with
  | none => exact .ok h
  | @some d e hd =>
    have hsource := h.sourceFor law hd fun ⟨x, hx⟩ ⟨x', hx'⟩ => by
      have hboth := hseen _ _ (congrArg (Except.map _) hx) (congrArg (Except.map _) hx')
      exact ⟨hboth.1 d rfl, hboth.2 e rfl⟩
    refine hsource.map fun x x' hxx' => ?_
    rw [hname, htransforms]
    refine hxx'.2.register _ ?_
    show Pipeline.mk _ _ = Pipeline.mk _ _
    rw [Option.map_some, Option.map_some, Source.outline, Source.outline, hxx'.1.name]

/-- The views of alike trees register outputs that correspond, or fail with the same error. -/
theorem Alike.registerViews (h : Alike Q J r r') {p : Place} {views views' : List View}
    (hviews : List.Forall₂ (fun v w => v.sketch p = w.sketch p ∧ v.SameData D w) views views')
    (index : Nat) (hA : ∀ d ∈ r.lookedUp index views, A d)
    (hB : ∀ e ∈ r'.lookedUp index views', B e) :
    SameOutcome (Alike Q J) (r.registerViews index views) (r'.registerViews index views') := by
  induction hviews generalizing r r' index with
  | nil => exact .ok h
  | @cons v w rest rest' hv _ ih =>
    rw [registerViews, registerViews]
    rw [lookedUp] at hA hB
    refine (h.registerOutput law hv.1 hv.2 index ?_).with_results.bind ?_
    · intro q q' hq hq'
      rw [hq] at hA
      rw [hq'] at hB
      exact ⟨fun d hd => hA d (List.mem_append_left _ (Option.mem_toList.2 hd)),
        fun e he => hB e (List.mem_append_left _ (Option.mem_toList.2 he))⟩
    · rintro q q' ⟨hqq', hq, hq'⟩
      rw [hq] at hA
      rw [hq'] at hB
      exact ih hqq' (index + 1) (fun d hd => hA d (List.mem_append_right _ hd))
        fun e he => hB e (List.mem_append_right _ he)

end Law

end Registry

end ChartLowering
