import ChartLowering.Proofs.Output.References
import ChartLowering.Proofs.Schema.Accepted

/-
  What the steps of a pipeline read.

  The steps of a unit's pipeline read and write fields of the same rows. Projected positions are
  fields with generated names, which a chart's own fields can have as well. Extractions come first,
  so they read the fields of the root dataset, and so does the projection of the primary coordinates.
  The secondary coordinates are spoiled if and only if one of them is a field that the primary
  positions have overwritten (`reads_root_iff`); the pair is then placed by pixels, not by degrees.
-/

namespace ChartLowering

/-! ## Rows through steps -/

/-- The values of a row by field. -/
abbrev FieldValues := String → Option Json

namespace FlowStep

/-- Whether a step leaves alone what another one reads. -/
def Spares (a b : FlowStep) : Prop := ∀ f ∈ a.writes, f ∉ b.reads

instance (a b : FlowStep) : Decidable (a.Spares b) :=
  inferInstanceAs (Decidable (∀ f ∈ a.writes, _))

/-- A row after some steps; `written` says what a step writes to the fields that it writes. -/
def rowAfter (written : FlowStep → FieldValues → FieldValues) (steps : List FlowStep)
    (row : FieldValues) : FieldValues :=
  steps.foldl (fun row s f => if f ∈ s.writes then written s row f else row f) row

/-- Whether no step writes what a later step reads. -/
def Unspoiled (steps : List FlowStep) : Prop := steps.Pairwise Spares

instance (steps : List FlowStep) : Decidable (Unspoiled steps) :=
  inferInstanceAs (Decidable (steps.Pairwise Spares))

/-- Whether every step reads the fields of the root row, whatever the steps before it write. -/
def ReadsRoot (steps : List FlowStep) : Prop :=
  ∀ before s after, steps = before ++ s :: after →
    ∀ written row, ∀ f ∈ s.reads, rowAfter written before row f = row f

theorem rowAfter_of_notMem (written : FlowStep → FieldValues → FieldValues)
    {steps : List FlowStep} {f : String} (h : ∀ s ∈ steps, f ∉ s.writes) (row : FieldValues) :
    rowAfter written steps row f = row f := by
  induction steps generalizing row with
  | nil => rfl
  | cons s rest ih =>
    refine (ih (fun t ht => h t (List.mem_cons_of_mem s ht)) _).trans ?_
    exact if_neg (h s List.mem_cons_self)

/-- What has been written to null stays null, if every step writes null. -/
theorem rowAfter_null {steps : List FlowStep} {f : String} {row : FieldValues}
    (h : row f = some .null ∨ ∃ s ∈ steps, f ∈ s.writes) :
    rowAfter (fun _ _ _ => some .null) steps row f = some .null := by
  induction steps generalizing row with
  | nil => exact h.resolve_right fun ⟨s, hs, _⟩ => absurd hs List.not_mem_nil
  | cons s rest ih =>
    refine ih ?_
    by_cases hs : f ∈ s.writes
    · exact .inl (if_pos hs)
    · refine h.imp (fun hrow => (if_neg hs).trans hrow) ?_
      rintro ⟨t, ht, hf⟩
      exact ⟨t, (List.mem_cons.1 ht).resolve_left fun he => hs (he ▸ hf), hf⟩

/-- Steps that spare each other are exactly those that read the root row. -/
theorem unspoiled_iff_readsRoot (steps : List FlowStep) : Unspoiled steps ↔ ReadsRoot steps := by
  constructor
  · rintro h before s after rfl written row f hf
    refine rowAfter_of_notMem written (fun a ha hwrites => ?_) row
    exact (List.pairwise_append.1 h).2.2 a ha s List.mem_cons_self f hwrites hf
  · intro h
    refine List.pairwise_iff_forall_sublist.2 fun {a b} hab f hwrites hreads => ?_
    obtain ⟨before, rest, rfl, ha, hb⟩ := List.cons_sublist_iff.1 hab
    obtain ⟨between, after, rfl⟩ := List.append_of_mem (List.singleton_sublist.1 hb)
    -- every step writes null to an empty row, so the second one reads null and not nothing
    have hnull : rowAfter (fun _ _ _ => some .null) (before ++ between) (fun _ => none) f =
        some .null := rowAfter_null (.inr ⟨a, List.mem_append_left _ ha, hwrites⟩)
    rw [h (before ++ between) b after (List.append_assoc ..).symm _ _ f hreads] at hnull
    cases hnull

/-! ## Steps that write or read nothing -/

theorem spares_of_writes_eq_nil {a : FlowStep} (h : a.writes = []) (b : FlowStep) : a.Spares b := by
  intro f hf
  rw [h] at hf
  cases hf

theorem spares_of_reads_eq_nil {b : FlowStep} (h : b.reads = []) (a : FlowStep) : a.Spares b := by
  intro f _ hf
  rw [h] at hf
  cases hf

section Ends

variable {R : FlowStep → FlowStep → Prop}

/-- Steps in front that write nothing do not count. -/
theorem pairwise_append_iff (hR : ∀ a b, a.writes = [] → R a b) {before : List FlowStep}
    (h : ∀ a ∈ before, a.writes = []) (steps : List FlowStep) :
    (before ++ steps).Pairwise R ↔ steps.Pairwise R := by
  refine List.pairwise_append.trans ⟨fun hall => hall.2.1, fun hsteps => ⟨?_, hsteps, ?_⟩⟩
  · exact List.pairwise_of_forall_mem_list fun a ha b _ => hR a b (h a ha)
  · exact fun a ha b _ => hR a b (h a ha)

/-- The output reads nothing. -/
theorem pairwise_concat_output_iff (hR : ∀ a b, b.reads = [] → R a b) (steps : List FlowStep)
    (output : String) : (steps ++ [FlowStep.output output]).Pairwise R ↔ steps.Pairwise R := by
  refine List.pairwise_append.trans ⟨fun hall => hall.1, fun hsteps => ⟨hsteps, ?_, ?_⟩⟩
  · exact List.pairwise_singleton _ _
  · intro a _ b hb
    rw [List.mem_singleton.1 hb]
    exact hR a _ rfl

end Ends

end FlowStep

/-! ## The steps of a unit -/

theorem mem_insertText {s f : String} (l : List String) : f ∈ insertText s l ↔ f = s ∨ f ∈ l := by
  induction l with
  | nil => simp [insertText]
  | cons t rest ih =>
    unfold insertText
    split
    · rename_i hst
      subst hst
      simp
    · split
      · simp
      · rw [List.mem_cons, ih, List.mem_cons, or_left_comm]

theorem mem_sortedTexts {f : String} (l : List String) : f ∈ sortedTexts l ↔ f ∈ l := by
  induction l with
  | nil => rfl
  | cons s rest ih => rw [sortedTexts, List.foldr_cons, mem_insertText, ← sortedTexts, ih,
      List.mem_cons]

theorem Coordinate.field?_eq_some {c : Coordinate} {f : String} :
    c.field? = some f ↔ c = .field f := by
  cases c <;> simp [field?]

theorem spares_geopoint_iff {p q : String} {cs ds : List Coordinate} {ps qs : List String}
    {i j : Option Nat} :
    (FlowStep.transform (.geopoint p cs ps i)).Spares (.transform (.geopoint q ds qs j)) ↔
      ∀ f ∈ ps, .field f ∉ ds := by
  simp [FlowStep.Spares, FlowStep.writes, FlowStep.reads, Transform.writes, Transform.reads,
    mem_sortedTexts, Coordinate.field?_eq_some]

namespace UnitSpec

variable {u : UnitSpec} {v : View}

/-- Whether a unit has primary coordinates, and a secondary one that is a field of the name of a
position that the primary ones are projected to. -/
def ReadsOwnPosition (u : UnitSpec) (v : View) : Prop :=
  (∃ c ∈ [Channel.longitude, .latitude], (u.coordinate c).isAbsent = false) ∧
    ∃ c ∈ [Channel.longitude2, .latitude2], ∃ axis ∈ ["x", "y"],
      u.coordinate c = .field (v.partName axis)

instance (u : UnitSpec) (v : View) : Decidable (u.ReadsOwnPosition v) :=
  inferInstanceAs (Decidable (_ ∧ _))

/-- The pair of two channels. -/
def pair (u : UnitSpec) (lon lat : Channel) : CoordinatePair := ⟨u.coordinate lon, u.coordinate lat⟩

theorem coordinatePairs_eq (u : UnitSpec) : u.coordinatePairs =
    (if (u.pair .longitude .latitude).isPresent then [("", u.pair .longitude .latitude)] else []) ++
      if (u.pair .longitude2 .latitude2).isPresent then [("2", u.pair .longitude2 .latitude2)]
        else [] := by
  unfold coordinatePairs Channel.geoPairs pair
  simp only [List.filterMap_cons, List.filterMap_nil]
  split <;> split <;> simp_all

theorem isPresent_pair_iff {lon lat : Channel} : (u.pair lon lat).isPresent = true ↔
    ∃ c ∈ [lon, lat], (u.coordinate c).isAbsent = false := by
  simp only [pair, CoordinatePair.isPresent, Bool.not_and, Bool.or_eq_true, Bool.not_eq_true',
    List.mem_cons, List.not_mem_nil, or_false, exists_eq_or_imp, exists_eq_left]

/-- A unit that reads a field of its own positions draws on a map. -/
theorem needsProjection_of_readsOwnPosition (h : u.ReadsOwnPosition v) :
    u.needsProjection = true := by
  obtain ⟨-, c, hc, axis, -, hfield⟩ := h
  have hchannel : ((u.channel? c).map ChannelDef.isFieldOrDatum).getD false = true := by
    unfold coordinate at hfield
    split at hfield
    · rename_i d hd
      rw [hd]
      unfold ChannelDef.coordinate at hfield
      split at hfield
      · cases hfield
      · rename_i n hcontent
        simp [ChannelDef.isFieldOrDatum, ChannelDef.hasField, ChannelDef.field?, hcontent]
      · cases hfield
      · cases hfield
    · cases hfield
  unfold needsProjection
  refine Bool.or_eq_true_iff.2 (.inr (List.any_eq_true.2
    ⟨("2", .longitude2, .latitude2), by decide, List.any_eq_true.2 ⟨c, hc, hchannel⟩⟩))

/-- The projections of a unit spare each other unless its secondary one reads its own positions. -/
theorem unspoiled_projections_iff (projection : String) (view : Option Nat) :
    FlowStep.Unspoiled ((u.projections projection v.partName view).map .transform) ↔
      ¬ u.ReadsOwnPosition v := by
  unfold projections ReadsOwnPosition
  rw [coordinatePairs_eq, ← isPresent_pair_iff]
  by_cases hprimary : (u.pair .longitude .latitude).isPresent = true
  · by_cases hsecondary : (u.pair .longitude2 .latitude2).isPresent = true
    · rw [if_pos hprimary, if_pos hsecondary]
      have hpair : ∀ a b, FlowStep.Unspoiled [a, b] ↔ a.Spares b := fun a b => List.pairwise_pair
      refine (hpair _ _).trans (spares_geopoint_iff.trans ?_)
      have hpositions : [v.partName ("x" ++ ""), v.partName ("y" ++ "")] =
          ["x", "y"].map v.partName := rfl
      have hread : (u.pair .longitude2 .latitude2).toList =
          [Channel.longitude2, .latitude2].map u.coordinate := rfl
      rw [hpositions, hread]
      constructor
      · rintro hspares ⟨-, c, hc, axis, haxis, hfield⟩
        exact hspares _ (List.mem_map_of_mem haxis) (hfield ▸ List.mem_map_of_mem hc)
      · intro hown f hf hfield
        obtain ⟨axis, haxis, rfl⟩ := List.mem_map.1 hf
        obtain ⟨c, hc, hfield⟩ := List.mem_map.1 hfield
        exact hown ⟨hprimary, c, hc, axis, haxis, hfield⟩
    · rw [if_neg hsecondary, List.append_nil, if_pos hprimary]
      refine iff_of_true (List.pairwise_singleton _ _) ?_
      rintro ⟨-, c, hc, axis, -, hfield⟩
      exact hsecondary (isPresent_pair_iff.2 ⟨c, hc, by rw [hfield]; rfl⟩)
  · rw [if_neg hprimary, List.nil_append]
    refine iff_of_true ?_ fun h => hprimary h.1
    split
    · exact List.pairwise_singleton _ _
    · exact List.Pairwise.nil

/-- All that is spoiled by projections is the projection of the secondary coordinates. -/
theorem pairwise_projections (u : UnitSpec) (v : View) (projection : String) (view : Option Nat) :
    ((u.projections projection v.partName view).map FlowStep.transform).Pairwise fun _ b =>
      b.writes = sortedTexts [v.partName "x2", v.partName "y2"] := by
  unfold projections
  rw [coordinatePairs_eq]
  split <;> split
  · exact List.pairwise_pair.2 rfl
  · exact List.pairwise_singleton _ _
  · exact List.pairwise_singleton _ _
  · exact List.Pairwise.nil

end UnitSpec

namespace View

/-- The steps of a unit from a root dataset to its output. -/
def unitSteps (v : View) (u : UnitSpec) (index : Nat) (s : Source) : List FlowStep :=
  Pipeline.steps ⟨some s, v.transforms u index⟩ v.mainOutput

theorem writes_eq_nil_of_mem_extractions {u : UnitSpec} {name : String → String} {t : Transform}
    (h : t ∈ u.extractions name) : t.writes = [] := by
  obtain ⟨⟨role, i⟩, -, rfl⟩ := List.mem_map.1 h
  cases role <;> rfl

/-- What holds of a step that writes nothing before any other, and of any step before one that reads
nothing, is about the projections alone. -/
theorem pairwise_unitSteps_iff {R : FlowStep → FlowStep → Prop}
    (hwrites : ∀ a b, a.writes = [] → R a b) (hreads : ∀ a b, b.reads = [] → R a b) {v : View}
    {k : Component} (hk : v.component? .projection none = some k) (u : UnitSpec) (index : Nat)
    (s : Source) : (v.unitSteps u index s).Pairwise R ↔
      ((u.projections k.name v.partName (some index)).map FlowStep.transform).Pairwise R := by
  unfold unitSteps Pipeline.steps transforms
  rw [hk, FlowStep.pairwise_concat_output_iff hreads]
  simp only [List.map_append, ← List.append_assoc]
  refine FlowStep.pairwise_append_iff hwrites (fun a ha => ?_) _
  rcases List.mem_append.1 ha with ha | ha
  · cases List.mem_singleton.1 ha
    rfl
  · obtain ⟨t, ht, rfl⟩ := List.mem_map.1 ha
    split at ht
    · exact writes_eq_nil_of_mem_extractions ht
    · cases ht

/-- Without a projection there is nothing between the root dataset and the output. -/
theorem pairwise_unitSteps_of_none {R : FlowStep → FlowStep → Prop}
    (hreads : ∀ a b, b.reads = [] → R a b) {v : View} (hk : v.component? .projection none = none)
    (u : UnitSpec) (index : Nat) (s : Source) : (v.unitSteps u index s).Pairwise R := by
  unfold unitSteps Pipeline.steps transforms
  rw [hk, FlowStep.pairwise_concat_output_iff hreads]
  exact List.pairwise_singleton _ _

end View

namespace TopLevelSpec

open FlowStep ViewTree

/-- No step of a unit writes what a later step reads, and so every step reads the fields of the root
dataset, if and only if the unit's secondary coordinates read no position that its primary ones are
projected to. Only the projection of the secondary coordinates is ever spoiled. -/
theorem reads_root_iff (settings : Settings) (t : TopLevelSpec) {i : Nat} {v : View} {u : UnitSpec}
    (hv : (t.resolved settings).labels[i]? = some v) (hform : v.form = .unit u) (s : Source) :
    (Unspoiled (v.unitSteps u i s) ↔ ¬ u.ReadsOwnPosition v) ∧
      (ReadsRoot (v.unitSteps u i s) ↔ ¬ u.ReadsOwnPosition v) ∧
      (v.unitSteps u i s).Pairwise fun a b =>
        a.Spares b ∨ b.writes = sortedTexts [v.partName "x2", v.partName "y2"] := by
  have hunspoiled : Unspoiled (v.unitSteps u i s) ↔ ¬ u.ReadsOwnPosition v := by
    cases hk : v.component? .projection none with
    | some k =>
      exact (View.pairwise_unitSteps_iff (fun _ b h => spares_of_writes_eq_nil h b)
        (fun a _ h => spares_of_reads_eq_nil h a) hk u i s).trans
          (UnitSpec.unspoiled_projections_iff k.name (some i))
    | none =>
      refine iff_of_true
        (View.pairwise_unitSteps_of_none (fun a _ h => spares_of_reads_eq_nil h a) hk u i s) ?_
      intro hown
      obtain ⟨l, hl, rfl⟩ := List.mem_map.1 (List.mem_of_getElem? hv)
      have hsettled := (isResolved_resolved settings t).settled l hl
      obtain ⟨k, hsome⟩ := hsettled.exists_projection_of_needed hform
        (UnitSpec.needsProjection_of_readsOwnPosition hown)
      cases hk.symm.trans hsome
  refine ⟨hunspoiled, (unspoiled_iff_readsRoot _).symm.trans hunspoiled, ?_⟩
  cases hk : v.component? .projection none with
  | some k =>
    refine (View.pairwise_unitSteps_iff (fun _ b h => .inl (spares_of_writes_eq_nil h b))
      (fun a _ h => .inl (spares_of_reads_eq_nil h a)) hk u i s).2 ?_
    exact (UnitSpec.pairwise_projections u v k.name (some i)).imp .inr
  | none =>
    exact View.pairwise_unitSteps_of_none (fun a _ h => .inl (spares_of_reads_eq_nil h a)) hk u i s

/-- Journeys on a map, with the fields of their ends. -/
def journeys (longitude latitude : String) : UnitSpec :=
  let reading (field : String) : Encoded :=
    .one ⟨.field field, none, none, .unset, .unset, .empty⟩
  ⟨⟨"point", .empty⟩, ⟨[(.longitude, reading "lon"), (.latitude, reading "lat"),
    (.longitude2, reading longitude), (.latitude2, reading latitude)]⟩, none⟩

def journeysOfFlights (longitude latitude : String) : TopLevelSpec :=
  ⟨.unit ⟨none, some ⟨.name "flights", none⟩, none, none⟩ (journeys longitude latitude), .empty,
    .plain⟩

def flights : Source := ⟨"flights", .obj [("name", .str "flights")]⟩

/-- Ends with names of their own are read from the flights. -/
theorem reads_root_journeys : ∃ v,
    ((journeysOfFlights "lon2" "lat2").resolved .standard).labels[0]? = some v ∧
      v.form = .unit (journeys "lon2" "lat2") ∧
        ReadsRoot (v.unitSteps (journeys "lon2" "lat2") 0 flights) := by
  have hunit : ((journeysOfFlights "lon2" "lat2").resolved .standard).labels[0]?.any (fun v =>
      decide (v.form = .unit (journeys "lon2" "lat2") ∧
        ¬ (journeys "lon2" "lat2").ReadsOwnPosition v)) = true := by
    decide +kernel
  obtain ⟨v, hv, hunit⟩ := (Option.any_eq_true _ _).1 hunit
  obtain ⟨hform, hown⟩ := of_decide_eq_true hunit
  exact ⟨v, hv, hform, (reads_root_iff _ _ hv hform flights).2.1.2 hown⟩

def journeysJson : Json :=
  let reading (field : String) : Json := .obj [("field", .str field)]
  .obj [("mark", .str "point"), ("data", .obj [("name", .str "flights")]),
    ("encoding", .obj [("longitude", reading "lon"), ("latitude", reading "lat"),
      ("longitude2", reading "x"), ("latitude2", reading "y")])]

/-- Ends in fields of the names x and y are lost: the starts are projected to these two fields
before the ends are read. -/
theorem reads_overwritten : (journeysOfFlights "x" "y").Accepted ∧
    ∃ v, ((journeysOfFlights "x" "y").resolved .standard).labels[0]? = some v ∧
      v.form = .unit (journeys "x" "y") ∧ v.data = some ⟨.name "flights", none⟩ ∧
        ¬ Unspoiled (v.unitSteps (journeys "x" "y") 0 flights) ∧
          ¬ ReadsRoot (v.unitSteps (journeys "x" "y") 0 flights) := by
  have hunit : ((journeysOfFlights "x" "y").resolved .standard).labels[0]?.any (fun v =>
      decide (v.form = .unit (journeys "x" "y") ∧ v.data = some ⟨.name "flights", none⟩ ∧
        ¬ Unspoiled (v.unitSteps (journeys "x" "y") 0 flights))) = true := by
    decide +kernel
  obtain ⟨v, hv, hunit⟩ := (Option.any_eq_true _ _).1 hunit
  obtain ⟨hform, hdata, hspoiled⟩ := of_decide_eq_true hunit
  exact ⟨⟨journeysJson, by decide +kernel, rfl⟩, v, hv, hform, hdata, hspoiled,
    mt (unspoiled_iff_readsRoot _).2 hspoiled⟩

end TopLevelSpec

end ChartLowering
