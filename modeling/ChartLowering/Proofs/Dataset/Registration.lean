import ChartLowering.Compile
import ChartLowering.Proofs.Dataset.Roots

/-
  What the views of a specification register.

  A view registers an output if it has data and is a unit, a facet, or the owner of the data; only
  units transform their data, and only those whose projection is fit extract geometry signals. The
  views register in the order of the walk, so an output stands where its name was first registered,
  and for what the last view of that name has registered (`Registered`).
-/

namespace ChartLowering

namespace View

/-- Whether the view registers an output. -/
def hasOutput (v : View) : Bool :=
  v.data.isSome && (v.kind == .unit || v.kind == .facet || v.ownData.isSome)

/-- The definition of the output's data, if the view registers an output. -/
def outputData? (v : View) : Option DataSpec := if v.hasOutput then v.data else none

/-- The transforms of the output of the view with the given index. -/
def outputTransforms (v : View) (index : Nat) : List Transform :=
  match v.form with
  | .unit u => v.transforms u index
  | _ => []

/-- The geometry signals that are extracted from the view's data. -/
def extracted (v : View) : List String :=
  match v.form, v.data, v.component? .projection none with
  | .unit u, some _, some k =>
    if k.isFit then u.geometryRoles.zipIdx.map fun e => v.partName (geometrySuffix e.2) else []
  | _, _, _ => []

theorem hasOutput_iff_outputData? {v : View} : v.hasOutput = true ↔ ∃ d, v.outputData? = some d := by
  unfold outputData? hasOutput
  cases v.data with
  | none => simp
  | some d => simp only [Option.isSome_some, Bool.true_and]; split <;> simp_all

theorem data_of_outputData? {v : View} {d : DataSpec} (h : v.outputData? = some d) :
    v.data = some d := by
  unfold outputData? at h
  split at h
  · exact h
  · cases h

theorem outputData?_unit {v : View} {u : UnitSpec} (hform : v.form = .unit u) :
    v.outputData? = v.data := by
  unfold outputData? hasOutput kind
  rw [hform]
  cases v.data <;> rfl

theorem extracted_of_data_eq_none {v : View} (h : v.data = none) : v.extracted = [] := by
  unfold extracted
  rw [h]
  split
  · rename_i hsome _
    cases hsome
  · rfl

theorem extracted_of_composite {v : View} (h : ∀ u, v.form ≠ .unit u) : v.extracted = [] := by
  unfold extracted
  split
  · rename_i u _ k hu _ _
    exact absurd hu (h u)
  · rfl

theorem extracted_of_outputData?_eq_none {v : View} (h : v.outputData? = none) :
    v.extracted = [] := by
  by_cases hform : ∃ u, v.form = .unit u
  · obtain ⟨u, hu⟩ := hform
    rw [outputData?_unit hu] at h
    exact extracted_of_data_eq_none h
  · exact extracted_of_composite (not_exists.1 hform)

/-- Only units with data have geometry extracted. -/
theorem exists_unit_of_mem_extracted {v : View} {n : String} (h : n ∈ v.extracted) :
    ∃ u d, v.form = .unit u ∧ v.data = some d := by
  by_cases hform : ∃ u, v.form = .unit u
  · obtain ⟨u, hform⟩ := hform
    cases hdata : v.data with
    | none =>
      rw [extracted_of_data_eq_none hdata] at h
      exact absurd h List.not_mem_nil
    | some d => exact ⟨u, d, hform, rfl⟩
  · rw [extracted_of_composite (not_exists.1 hform)] at h
    exact absurd h List.not_mem_nil

/-- What registering the output of a view comes to. -/
theorem registerOutput_eq (r : Registry) (v : View) (index : Nat) :
    v.registerOutput r index =
      match v.outputData? with
      | none => .ok r
      | some d => (r.sourceFor d).map fun e =>
          e.2.register v.mainOutput ⟨some e.1, v.outputTransforms index⟩ := by
  unfold registerOutput outputData? hasOutput outputTransforms kind
  cases v.data with
  | none => rfl
  | some d =>
    cases v.form with
    | unit u => rfl
    | layer | facet | concat => cases v.ownData <;> rfl

/-- A registered view has changed nothing, or registered its output over a root dataset. -/
theorem registerOutput_cases {r r' : Registry} {v : View} {index : Nat}
    (h : v.registerOutput r index = .ok r') :
    (v.outputData? = none ∧ r' = r) ∨
      ∃ d s q, v.outputData? = some d ∧ r.sourceFor d = .ok (s, q) ∧
        r' = q.register v.mainOutput ⟨some s, v.outputTransforms index⟩ := by
  rw [registerOutput_eq] at h
  cases hd : v.outputData? with
  | none =>
    rw [hd] at h
    exact Or.inl ⟨rfl, (Except.ok.inj h).symm⟩
  | some d =>
    rw [hd] at h
    change (r.sourceFor d).map _ = _ at h
    cases hs : r.sourceFor d with
    | error e => rw [hs] at h; cases h
    | ok result =>
      rw [hs] at h
      exact Or.inr ⟨d, result.1, result.2, rfl, hs, (Except.ok.inj h).symm⟩

/-- A transform of a unit extracts a geometry role, or projects a pair of coordinates through the
unit's projection. -/
theorem mem_transforms {v : View} {u : UnitSpec} {index : Nat} {t : Transform}
    (h : t ∈ v.transforms u index) : ∃ k, v.component? .projection none = some k ∧
      ((∃ role i, (role, i) ∈ u.geometryRoles.zipIdx ∧
        t = role.extraction (v.partName (geometrySuffix i))) ∨
      ∃ e ∈ u.coordinatePairs, t = .geopoint k.name e.2.toList
        [v.partName ("x" ++ e.1), v.partName ("y" ++ e.1)] (some index)) := by
  unfold transforms at h
  split at h
  · cases h
  · rename_i k hk
    refine ⟨k, hk, ?_⟩
    rcases List.mem_append.1 h with h | h
    · split at h
      · obtain ⟨⟨role, i⟩, hmem, rfl⟩ := List.mem_map.1 h
        exact .inl ⟨role, i, hmem, rfl⟩
      · cases h
    · obtain ⟨e, he, rfl⟩ := List.mem_map.1 h
      exact .inr ⟨e, he, rfl⟩

end View

namespace Pipeline

/-- The signals of a pipeline are those of its extractions. -/
theorem mem_signals {p : Pipeline} {signal : String} : signal ∈ p.signals ↔
    ∃ coordinates geometry, .geojson coordinates geometry signal ∈ p.transforms := by
  unfold signals
  rw [List.mem_filterMap]
  constructor
  · rintro ⟨t, ht, hsignal⟩
    cases t with
    | geojson coordinates geometry n =>
      obtain rfl := Option.some.inj hsignal
      exact ⟨coordinates, geometry, ht⟩
    | geopoint projection coordinates positions view => cases hsignal
  · rintro ⟨coordinates, geometry, ht⟩
    exact ⟨_, ht, rfl⟩

theorem signals_append (source : Option Source) (ts us : List Transform) :
    signals ⟨source, ts ++ us⟩ = signals ⟨source, ts⟩ ++ signals ⟨source, us⟩ :=
  List.filterMap_append

theorem signals_extractions (source : Option Source) (u : UnitSpec) (name : String → String) :
    signals ⟨source, u.extractions name⟩ =
      u.geometryRoles.zipIdx.map fun e => name (geometrySuffix e.2) := by
  unfold signals UnitSpec.extractions
  rw [List.filterMap_map, ← List.filterMap_eq_map]
  refine List.filterMap_congr ?_
  rintro ⟨role, i⟩ -
  cases role <;> rfl

theorem signals_projections (source : Option Source) (u : UnitSpec) (projection : String)
    (name : String → String) (view : Option Nat) :
    signals ⟨source, u.projections projection name view⟩ = [] := by
  unfold signals UnitSpec.projections
  rw [List.filterMap_map, List.filterMap_eq_nil_iff]
  rintro ⟨suffix, pair⟩ -
  rfl

/-- The pipeline of a unit extracts the unit's geometry signals. -/
theorem signals_transforms {v : View} {u : UnitSpec} (hform : v.form = .unit u) {d : DataSpec}
    (hd : v.data = some d) (source : Option Source) (index : Nat) :
    signals ⟨source, v.transforms u index⟩ = v.extracted := by
  unfold View.transforms View.extracted
  rw [hform, hd]
  cases v.component? .projection none with
  | none => rfl
  | some k =>
    simp only
    rw [signals_append, signals_projections, List.append_nil]
    split
    · exact signals_extractions source u v.partName
    · rfl

/-- The pipeline of a view's output extracts the view's geometry signals. -/
theorem signals_outputTransforms {v : View} {d : DataSpec} (hd : v.outputData? = some d)
    (source : Option Source) (index : Nat) :
    signals ⟨source, v.outputTransforms index⟩ = v.extracted := by
  unfold View.outputTransforms
  split
  · rename_i u hform
    exact signals_transforms hform (View.data_of_outputData? hd) source index
  · rename_i hform
    rw [View.extracted_of_composite hform]
    rfl

end Pipeline

namespace Registry

variable {r₀ r r' : Registry} {views : List View} {v : View}

/-- What one registration after the other preserves holds after all of them. -/
theorem registerViews_induction {P : List View → Registry → Prop}
    (step : ∀ views v r r', P views r → v.registerOutput r views.length = .ok r' →
      P (views ++ [v]) r')
    {before : List View} (h : P before r) (hr : r.registerViews before.length views = .ok r') :
    P (before ++ views) r' := by
  induction views generalizing before r with
  | nil =>
    obtain rfl := Except.ok.inj hr
    rwa [List.append_nil]
  | cons v rest ih =>
    unfold registerViews at hr
    cases hv : v.registerOutput r before.length with
    | error e => rw [hv] at hr; cases hr
    | ok q =>
      rw [hv] at hr
      rw [List.append_cons]
      refine ih (step _ _ _ _ h hv) ?_
      rwa [List.length_append]

/-- Whether a view is the last of some views to register an output under a name. -/
structure IsLast (views : List View) (n : String) (i : Nat) (v : View) : Prop where
  here : views[i]? = some v
  registers : v.hasOutput = true
  name : v.mainOutput = n
  last : ∀ j w, views[j]? = some w → w.hasOutput = true → w.mainOutput = n → j ≤ i

/-- The view that comes last is the last one under its name. -/
theorem isLast_concat (hv : v.hasOutput = true) :
    IsLast (views ++ [v]) v.mainOutput views.length v where
  here := List.getElem?_concat_length
  registers := hv
  name := rfl
  last := by
    intro j w hw _ _
    have hj := (List.getElem?_eq_some_iff.1 hw).1
    rw [List.length_append, List.length_singleton] at hj
    omega

/-- A view that registers nothing under a name does not come last under it. -/
theorem IsLast.concat {n : String} {i : Nat} {w : View} (h : IsLast views n i w)
    (hv : v.hasOutput = true → v.mainOutput ≠ n) : IsLast (views ++ [v]) n i w where
  here := by rw [List.getElem?_append_left (List.getElem?_eq_some_iff.1 h.here).1, h.here]
  registers := h.registers
  name := h.name
  last := by
    intro j x hx hregisters hname
    rcases Nat.lt_trichotomy j views.length with hj | rfl | hj
    · rw [List.getElem?_append_left hj] at hx
      exact h.last j x hx hregisters hname
    · rw [List.getElem?_concat_length] at hx
      obtain rfl := Option.some.inj hx
      exact absurd hname (hv hregisters)
    · have := (List.getElem?_eq_some_iff.1 hx).1
      rw [List.length_append, List.length_singleton] at this
      omega

/-- What a registry is after some views have registered their outputs in an unused one. -/
structure Registered (r₀ r : Registry) (views : List View) : Prop where
  rooted : r.Rooted (views.filterMap View.outputData?)
  keys : r.outputs.keys = ((views.filter View.hasOutput).map View.mainOutput).eraseDups
  nodup : r.outputs.keys.Nodup
  last : ∀ n p, r.outputs.get? n = some p → ∃ i v d s, IsLast views n i v ∧
    v.outputData? = some d ∧ r.sources.get? (sourceKey d) = some s ∧
      p = ⟨some s, v.outputTransforms i⟩
  signals : r.signals = views.flatMap View.extracted
  concrete : r.concrete = .empty
  derived : r.derived = .empty
  frame : ∃ sources numbered outputs signals, r = { r₀ with
    sources := sources, numbered := numbered, outputs := outputs, signals := signals }

theorem registered_start (declared : OrderedMap String Json) (strict : Bool) (names : List String) :
    Registered ((start declared strict).note names) ((start declared strict).note names) [] where
  rooted := (rooted_start declared strict).note names
  keys := rfl
  nodup := List.nodup_nil
  last := fun n p hp => by cases hp
  signals := rfl
  concrete := rfl
  derived := rfl
  frame := ⟨_, _, _, _, rfl⟩

/-- A view without an output registers nothing. -/
theorem Registered.append_silent (h : Registered r₀ r views) (hnone : v.outputData? = none) :
    Registered r₀ r (views ++ [v]) := by
  have hoff : v.hasOutput = false := by
    rw [Bool.eq_false_iff, Ne, View.hasOutput_iff_outputData?, hnone]
    simp
  refine ⟨?rooted, ?keys, h.nodup, ?last, ?signals, h.concrete, h.derived, h.frame⟩
  case rooted =>
    rw [List.filterMap_append, List.filterMap_cons_none hnone, List.filterMap_nil, List.append_nil]
    exact h.rooted
  case keys =>
    rw [List.filter_append, List.filter_cons_of_neg (by simp [hoff]), List.filter_nil,
      List.append_nil]
    exact h.keys
  case last =>
    intro n p hp
    obtain ⟨i, w, d, s, hlast, hrest⟩ := h.last n p hp
    exact ⟨i, w, d, s, hlast.concat (by simp [hoff]), hrest⟩
  case signals =>
    rw [List.flatMap_append, List.flatMap_singleton, View.extracted_of_outputData?_eq_none hnone,
      List.append_nil]
    exact h.signals

/-- One more registration. -/
theorem Registered.registerOutput (h : Registered r₀ r views)
    (hr : v.registerOutput r views.length = .ok r') : Registered r₀ r' (views ++ [v]) := by
  rcases View.registerOutput_cases hr with ⟨hnone, rfl⟩ | ⟨d, s, q, hd, hs, rfl⟩
  · exact h.append_silent hnone
  · have hon : v.hasOutput = true := View.hasOutput_iff_outputData?.2 ⟨d, hd⟩
    obtain ⟨sources, numbered, outputs, signals, hframe⟩ := h.frame
    have hq : q.outputs = r.outputs ∧ q.signals = r.signals ∧
        ∃ sources numbered, q = { r with sources := sources, numbered := numbered } := by
      rcases sourceFor_cases hs with ⟨-, rfl⟩ | ⟨-, -, rfl⟩
      · exact ⟨rfl, rfl, _, _, rfl⟩
      · exact ⟨rfl, rfl, _, _, rfl⟩
    obtain ⟨houtputs, hsignals, qsources, qnumbered, hqframe⟩ := hq
    refine ⟨?rooted, ?keys, ?nodup, ?last, ?signals, ?concrete, ?derived, ?frame⟩
    case rooted =>
      rw [List.filterMap_append, List.filterMap_cons_some hd, List.filterMap_nil]
      exact (h.rooted.sourceFor hs).register _ _
    case keys =>
      show (q.outputs.insert _ _).keys = _
      rw [houtputs, OrderedMap.keys_insert, h.keys, List.filter_append, List.filter_cons_of_pos hon,
        List.filter_nil, List.map_append, List.map_singleton, eraseDups_concat]
      simp only [List.mem_eraseDups]
    case nodup =>
      show (q.outputs.insert _ _).keys.Nodup
      rw [houtputs]
      exact OrderedMap.nodup_keys_insert h.nodup _ _
    case last =>
      intro n p hp
      change (q.outputs.insert _ _).get? n = some p at hp
      rw [houtputs, OrderedMap.get?_insert] at hp
      split at hp
      · rename_i hn
        subst hn
        have hfound : q.sources.get? (sourceKey d) = some s := get?_sourceFor hs
        exact ⟨views.length, v, d, s, isLast_concat hon, hd, hfound, (Option.some.inj hp).symm⟩
      · rename_i hn
        obtain ⟨i, w, e, s', hlast, he, hs', hp⟩ := h.last n p hp
        have hkept : q.sources.get? (sourceKey e) = some s' := get?_sourceFor_of_some hs hs'
        exact ⟨i, w, e, s', hlast.concat fun _ => Ne.symm hn, he, hkept, hp⟩
    case signals =>
      show q.signals ++ Pipeline.signals _ = _
      rw [hsignals, h.signals, Pipeline.signals_outputTransforms hd, List.flatMap_append,
        List.flatMap_singleton]
    case concrete =>
      show q.concrete = .empty
      rw [hqframe]
      exact h.concrete
    case derived =>
      show q.derived = .empty
      rw [hqframe]
      exact h.derived
    case frame =>
      subst hframe
      subst hqframe
      exact ⟨_, _, _, _, rfl⟩

/-- All registrations of some views. -/
theorem registered_registerViews (h : Registered r₀ r₀ [])
    (hr : r₀.registerViews 0 views = .ok r) : Registered r₀ r views :=
  registerViews_induction (P := fun views r => Registered r₀ r views)
    (fun _ _ _ _ h hr => h.registerOutput hr) h hr

end Registry

namespace TopLevelSpec

/-- The datasets of a specification are what its views have registered, in the order of the walk. -/
theorem registered_eq_ok {settings : Settings} {t : TopLevelSpec} {r : Registry}
    (h : t.registered settings = .ok r) :
    Registry.Registered (t.requested settings) r (t.resolved settings).labels :=
  Registry.registered_registerViews (Registry.registered_start _ _ _) h

end TopLevelSpec

end ChartLowering
