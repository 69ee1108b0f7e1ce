import ChartLowering.Dataset.Views
import ChartLowering.Proofs.Dataset.Linking
import ChartLowering.Proofs.Dataset.Roots

/-
  What is emitted.

  A dataset is consulted by a look-up, which counts for the concrete dataset, or by a request, which
  counts for the name that is requested (`consult`). Emission reads of all that only which names were
  consulted (`emit_note_congr`), and what is consulted in addition adds datasets between those that were
  emitted before (`emit_note_sublist`). In a registry that is fed with pipelines from its own roots
  (`Fed`) every derived dataset has its root, and roots are emitted first (`emission_spec`).
-/

namespace ChartLowering

namespace Registry

variable {r q : Registry} {roots : List Source} {s : Source}

/-! ## Consultations -/

/-- A call that consults a dataset. -/
inductive Consultation where
  | lookup (name : String)
  | request (view : View) (kind : OutputKind)

/-- The name that a call counts for. -/
def raised (r : Registry) : Consultation → String
  | .lookup name => r.concreteName name
  | .request v kind => v.partName kind.name

def consult (r : Registry) (c : Consultation) : Registry := r.note [r.raised c]

def consultAll (r : Registry) (calls : List Consultation) : Registry := calls.foldl consult r

theorem note_note (r : Registry) (names further : List String) :
    (r.note names).note further = r.note (names ++ further) := by
  unfold note
  simp only [List.reverse_append, List.append_assoc]

/-- Calls count for the names that they would count for at first. -/
theorem consultAll_eq_note (r : Registry) (calls : List Consultation) :
    r.consultAll calls = r.note (calls.map r.raised) := by
  suffices hnote : ∀ names,
      (r.note names).consultAll calls = r.note (names ++ calls.map r.raised) from hnote []
  induction calls with
  | nil =>
    intro names
    rw [List.map_nil, List.append_nil]
    rfl
  | cons c rest ih =>
    intro names
    have hraised : (r.note names).raised c = r.raised c := by cases c <;> rfl
    show ((r.note names).note [(r.note names).raised c]).consultAll rest = _
    rw [hraised, note_note, ih, List.append_assoc]
    rfl

theorem count_note (r : Registry) (names : List String) (n : String) :
    (r.note names).count n = names.count n + r.count n := by
  unfold count note
  rw [List.count_append, List.count_reverse]

theorem isConsulted_note (r : Registry) (names : List String) (n : String) :
    (r.note names).isConsulted n = true ↔ n ∈ names ∨ r.isConsulted n = true := by
  unfold isConsulted note
  simp

/-- The calls that raise the count of a name are those that count for it. -/
theorem count_lt_consultAll_iff (calls : List Consultation) (n : String) :
    r.count n < (r.consultAll calls).count n ↔ n ∈ calls.map r.raised := by
  rw [consultAll_eq_note, count_note, ← List.count_pos_iff]
  omega

/-! ## Emission -/

/-- Emission depends on which names are noted, not on their order or how often they are. -/
theorem emit_note_congr {names names' : List String} (h : ∀ n, n ∈ names ↔ n ∈ names')
    (assigned : Nat → String → String) :
    (r.note names).emit assigned = (r.note names').emit assigned := by
  have hconsulted : ∀ n, (r.note names).isConsulted n = (r.note names').isConsulted n := by
    intro n
    rw [Bool.eq_iff_iff, isConsulted_note, isConsulted_note, h]
  have hwanted : (r.note names).wanted = (r.note names').wanted :=
    List.filter_congr fun e _ => hconsulted e.1
  unfold emit neededSources
  rw [hwanted]
  simp only [hconsulted]
  rfl

/-- The more is noted the more is emitted, in the same order. -/
theorem emit_note_sublist (r : Registry) (names : List String) (assigned : Nat → String → String) :
    (r.emit assigned).Sublist ((r.note names).emit assigned) := by
  have hmore : ∀ n, r.isConsulted n = true → (r.note names).isConsulted n = true :=
    fun n hn => (isConsulted_note r names n).2 (Or.inr hn)
  have hwanted : r.wanted.Sublist (r.note names).wanted :=
    List.monotone_filter_right _ fun e => hmore e.1
  have hneeded : r.neededSources ⊆ (r.note names).neededSources := (hwanted.filterMap _).subset
  refine List.Sublist.append ((List.monotone_filter_right _ fun s hs => ?_).map _)
    (hwanted.filterMap _)
  rw [Bool.or_eq_true, List.contains_iff_mem] at hs ⊢
  exact hs.imp (hmore s.name) fun hs => hneeded hs

/-! ## Pipelines from roots -/

/-- What a registry can be whose pipelines start at root datasets that it has returned, and these
roots. -/
inductive Fed : List Source → Registry → Prop where
  | start (declared : OrderedMap String Json) (strict : Bool) : Fed [] (start declared strict)
  | sourceFor {roots : List Source} {r q : Registry} {d : DataSpec} {s : Source} :
      Fed roots r → r.sourceFor d = .ok (s, q) → Fed (roots ++ [s]) q
  | register {roots : List Source} {r : Registry} (name : String) (p : Pipeline) :
      Fed roots r → (∀ s, p.source = some s → s ∈ roots) → Fed roots (r.register name p)
  | note {roots : List Source} {r : Registry} (names : List String) :
      Fed roots r → Fed roots (r.note names)
  | link {roots : List Source} {r : Registry} : Fed roots r → Fed roots r.link

/-- The roots are there under their names, and all pipelines start at them. -/
structure Sourced (roots : List Source) (r : Registry) : Prop where
  kept : ∀ s ∈ roots, s ∈ r.sources.values
  named : ∀ s ∈ r.sources.values, s.dataset.field? "name" = some (.str s.name)
  outputs : ∀ p ∈ r.outputs.values, ∀ s, p.source = some s → s ∈ roots
  derived : ∀ p ∈ r.derived.values, ∃ s ∈ roots, p.source = some s

/-- Linking derives datasets only of outputs that have a source. -/
theorem mem_derived_link {p : Pipeline} (h : p ∈ r.link.derived.values) :
    p ∈ r.derived.values ∨ p ∈ r.outputs.values ∧ p.source ≠ none := by
  suffices hall : ∀ p ∈ r.link.derived.values,
      p ∈ r.derived.values ∨ p ∈ r.outputs.values ∧ p.source ≠ none from hall p h
  unfold link
  refine List.foldlRecOn r.outputs.entries Registry.linkOutput
    (motive := fun (state : OrderedMap String String × Registry) =>
      ∀ p ∈ state.2.derived.values, p ∈ r.derived.values ∨ p ∈ r.outputs.values ∧ p.source ≠ none)
    (fun p hp => Or.inl hp) ?_
  rintro state hstate ⟨name, p⟩ he
  cases hchain : p.chain? with
  | none =>
    rw [linkOutput_of_no_chain hchain]
    exact hstate
  | some chain =>
    cases howner : state.1.get? chain with
    | some owner =>
      rw [linkOutput_of_owner hchain howner]
      exact hstate
    | none =>
      rw [linkOutput_of_new hchain howner]
      intro p' hp'
      rcases OrderedMap.mem_values_insert hp' with rfl | hp'
      · obtain ⟨s, t, ts, rfl, -⟩ := Pipeline.chain?_eq_some hchain
        exact Or.inr ⟨List.mem_map.2 ⟨_, he, rfl⟩, Option.some_ne_none _⟩
      · exact hstate p' hp'

namespace Sourced

variable (h : Sourced roots r)

include h

theorem sourceFor {d : DataSpec} (hs : r.sourceFor d = .ok (s, q)) : Sourced (roots ++ [s]) q := by
  have hmem : s ∈ q.sources.values :=
    List.mem_map.2 ⟨_, OrderedMap.mem_entries_of_get? (get?_sourceFor hs), rfl⟩
  have houtputs : ∀ p ∈ r.outputs.values, ∀ s', p.source = some s' → s' ∈ roots ++ [s] :=
    fun p hp s' hs' => List.mem_append_left [s] (h.outputs p hp s' hs')
  have hderived : ∀ p ∈ r.derived.values, ∃ s' ∈ roots ++ [s], p.source = some s' := by
    intro p hp
    obtain ⟨s', hs', hp⟩ := h.derived p hp
    exact ⟨s', List.mem_append_left [s] hs', hp⟩
  rcases sourceFor_cases hs with ⟨-, rfl⟩ | ⟨hnone, rfl, rfl⟩
  · refine ⟨?_, h.named, houtputs, hderived⟩
    rw [List.forall_mem_append, List.forall_mem_singleton]
    exact ⟨h.kept, hmem⟩
  · have hvalues : (r.addRoot d).sources.values = r.sources.values ++ [r.newRoot d] := by
      unfold OrderedMap.values
      show (r.sources.insert (sourceKey d) (r.newRoot d)).entries.map Prod.snd = _
      rw [OrderedMap.entries_insert_of_notMem ((OrderedMap.get?_eq_none_iff ..).1 hnone),
        List.map_append]
      rfl
    refine ⟨?_, ?_, houtputs, hderived⟩
    · rw [List.forall_mem_append, List.forall_mem_singleton, hvalues]
      exact ⟨fun s hs => List.mem_append_left _ (h.kept s hs), hvalues ▸ hmem⟩
    · rw [hvalues, List.forall_mem_append, List.forall_mem_singleton]
      exact ⟨h.named, rfl⟩

theorem register (name : String) {p : Pipeline} (hp : ∀ s, p.source = some s → s ∈ roots) :
    Sourced roots (r.register name p) where
  kept := h.kept
  named := h.named
  outputs p' hp' := by
    rcases OrderedMap.mem_values_insert hp' with rfl | hp'
    · exact hp
    · exact h.outputs p' hp'
  derived := h.derived

theorem link : Sourced roots r.link := by
  obtain ⟨concrete, derived, hlink⟩ := link_frame r
  have hsources : r.link.sources = r.sources := by rw [hlink]
  have houtputs : r.link.outputs = r.outputs := by rw [hlink]
  refine ⟨hsources ▸ h.kept, hsources ▸ h.named, houtputs ▸ h.outputs, fun p hp => ?_⟩
  rcases mem_derived_link hp with hp | ⟨hp, hsource⟩
  · exact h.derived p hp
  · obtain ⟨s, hs⟩ := Option.ne_none_iff_exists'.1 hsource
    exact ⟨s, h.outputs p hp s hs, hs⟩

end Sourced

theorem Fed.sourced (h : Fed roots r) : Sourced roots r := by
  induction h with
  | start declared strict =>
    exact ⟨fun s hs => absurd hs List.not_mem_nil, fun s hs => absurd hs List.not_mem_nil,
      fun p hp => absurd hp List.not_mem_nil, fun p hp => absurd hp List.not_mem_nil⟩
  | sourceFor _ hs ih => exact ih.sourceFor hs
  | register name p _ hp ih => exact ih.register name hp
  | note names _ ih => exact ⟨ih.kept, ih.named, ih.outputs, ih.derived⟩
  | link _ ih => exact ih.link

/-- Whatever was linked before: what is emitted depends on the names that were consulted since and on
nothing else about these calls. A further look-up leaves what was emitted as it is, where it is. Roots
are emitted first, and derived datasets after them, each with the root that its pipeline starts at. -/
theorem emission_spec (h : Fed roots r) (assigned : Nat → String → String) :
    (∀ calls calls' : List Consultation,
      (∀ n, r.count n < (r.consultAll calls).count n ↔ r.count n < (r.consultAll calls').count n) →
      (r.consultAll calls).emit assigned = (r.consultAll calls').emit assigned) ∧
    (∀ (calls : List Consultation) (name : String), ((r.consultAll calls).emit assigned).Sublist
      (((r.consultAll calls).consult (.lookup name)).emit assigned)) ∧
    ∀ calls : List Consultation, ∃ (emitted : List Source) (derived : List DatasetDef),
      (r.consultAll calls).emit assigned = emitted.map (fun s => .root s.dataset) ++ derived ∧
      (∀ s ∈ emitted, s.dataset.field? "name" = some (.str s.name)) ∧
      ∀ e ∈ derived, ∃ name p, (name, p) ∈ r.derived.entries ∧ ∃ s ∈ emitted,
        s ∈ roots ∧ p.source = some s ∧
          e = .derived name s.name (p.transforms.flatMap fun t => t.emit assigned) := by
  have hsourced := h.sourced
  refine ⟨?same, ?further, ?rooted⟩
  case same =>
    intro calls calls' hsame
    simp only [count_lt_consultAll_iff] at hsame
    rw [consultAll_eq_note, consultAll_eq_note]
    exact emit_note_congr hsame assigned
  case further =>
    intro calls name
    exact emit_note_sublist _ _ assigned
  case rooted =>
    intro calls
    rw [consultAll_eq_note]
    refine ⟨_, _, rfl, fun s hs => hsourced.named s (List.mem_filter.1 hs).1, fun e he => ?_⟩
    obtain ⟨⟨name, p⟩, hwanted, he⟩ := List.mem_filterMap.1 he
    have hderived : (name, p) ∈ r.derived.entries := (List.mem_filter.1 hwanted).1
    obtain ⟨s, hs, hp⟩ := hsourced.derived p (List.mem_map.2 ⟨_, hderived, rfl⟩)
    refine ⟨name, p, hderived, s, List.mem_filter.2 ⟨hsourced.kept s hs, ?_⟩, hs, hp, ?_⟩
    · rw [Bool.or_eq_true, List.contains_iff_mem]
      exact Or.inr (List.mem_filterMap.2 ⟨_, hwanted, by rw [hp]; rfl⟩)
    · simp only [hp] at he
      exact (Option.some.inj he).symm

def cars : Source := ⟨"cars", .obj [("name", .str "cars")]⟩

/-- The rows of cars as they are, and with their places projected. -/
def linkedCars : Registry :=
  (((addRoot (start .empty false) ⟨.name "cars", none⟩).register "rows" ⟨some cars, []⟩).register
    "places" ⟨some cars, [.geopoint "projection" [.field "lon", .field "lat"] ["x", "y"] none]⟩).link

/-- Consulting the places again, and in another order, emits the same as before, where consulting the
rows alone emits the root. -/
theorem emission_spec_linkedCars :
    (linkedCars.consultAll [.lookup "places", .lookup "rows"]).emit (fun _ n => n) =
      (linkedCars.consultAll [.lookup "rows", .lookup "places", .lookup "places"]).emit
        (fun _ n => n) ∧
    (linkedCars.consultAll [.lookup "rows"]).emit (fun _ n => n) = [.root cars.dataset] ∧
    [DatasetDef.root cars.dataset].Sublist
      (((linkedCars.consultAll [.lookup "rows"]).consult (.lookup "places")).emit fun _ n => n) := by
  have hroot : (start .empty false).sourceFor ⟨.name "cars", none⟩ =
      .ok (cars, addRoot (start .empty false) ⟨.name "cars", none⟩) := rfl
  have hfed : Fed [cars] linkedCars :=
    ((((Fed.start .empty false).sourceFor hroot).register "rows" ⟨some cars, []⟩
      fun s hs => List.mem_singleton.2 (Option.some.inj hs).symm).register "places" _
        fun s hs => List.mem_singleton.2 (Option.some.inj hs).symm).link
  obtain ⟨hsame, hfurther, -⟩ := emission_spec hfed fun _ n => n
  have hrows : (linkedCars.consultAll [.lookup "rows"]).emit (fun _ n => n) =
      [.root cars.dataset] := by
    decide +kernel
  refine ⟨hsame _ _ fun n => ?_, hrows, ?_⟩
  · rw [count_lt_consultAll_iff, count_lt_consultAll_iff]
    simp [or_comm]
  · rw [← hrows]
    exact hfurther [.lookup "rows"] "places"

end Registry

end ChartLowering
