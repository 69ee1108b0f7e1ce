import ChartLowering.Proofs.Dataset.Relinking
import ChartLowering.Proofs.Dataset.Fingerprints

/-
  What it means for outputs to share a dataset.

  As long as no fingerprints collide, outputs with transforms share a dataset exactly if their
  sources have one name and their transforms are the same, and the dataset is that of the first
  such output (`Registry.Reached.link_spec`). This holds after any calls, as long as every output is
  registered under a name of its own. The view that a projection is looked up from is not compared,
  so outputs that share a dataset need not be written alike. They are if all projections are looked
  up in one way (`Transform.ResolvesBy`), which is assumed for this part only.
-/

namespace ChartLowering

/-! ## Transforms as they are written -/

namespace Transform

/-- Whether the projection of a transform, if it has one, is looked up in some way. -/
def ResolvesBy (assigned : Nat → String → String) (resolve : String → String) : Transform → Prop
  | .geojson .. => True
  | .geopoint _ _ _ view => ∀ n, (match view with
    | some i => assigned i n
    | none => n) = resolve n

/-- Transforms that are the same and look up projections in one way are written alike. -/
theorem Same.emit {assigned : Nat → String → String} {resolve : String → String}
    {t t' : Transform} (h : t.Same t') (ht : t.ResolvesBy assigned resolve)
    (ht' : t'.ResolvesBy assigned resolve) :
    (t.emit assigned).map Json.sorted = (t'.emit assigned).map Json.sorted := by
  cases h with
  | geojson h geometry signal =>
    cases h with
    | none => rfl
    | some h =>
      have hfields := sorted_coordinatesJson_eq_iff.2 h
      unfold Transform.emit
      simp only [List.map_append, List.map_singleton]
      congr 2
      refine Json.sorted_obj_congr ?_
      simp only [List.map_append, Option.map_some, Option.toList_some, List.map_singleton, hfields]
  | geopoint h projection positions view view' =>
    have hfields := sorted_coordinatesJson_eq_iff.2 h
    have hname := (ht projection).trans (ht' projection).symm
    unfold Transform.emit
    simp only [List.map_singleton]
    congr 1
    refine Json.sorted_obj_congr ?_
    simp only [List.map_cons, hfields]
    exact congrArg (fun n => [("type", (Json.str "geopoint").sorted),
      ("projection", (Json.str n).sorted), ("fields", (coordinatesJson _).sorted),
      ("as", (Json.strings positions).sorted)]) hname

theorem map_sorted_flatMap_emit {assigned : Nat → String → String} {resolve : String → String}
    {ts ts' : List Transform} (h : List.Forall₂ Same ts ts')
    (hts : ∀ t ∈ ts, t.ResolvesBy assigned resolve)
    (hts' : ∀ t ∈ ts', t.ResolvesBy assigned resolve) :
    (ts.flatMap (·.emit assigned)).map Json.sorted =
      (ts'.flatMap (·.emit assigned)).map Json.sorted := by
  induction h with
  | nil => rfl
  | cons ht _ ih =>
    obtain ⟨hhead, htail⟩ := List.forall_mem_cons.1 hts
    obtain ⟨hhead', htail'⟩ := List.forall_mem_cons.1 hts'
    rw [List.flatMap_cons, List.flatMap_cons, List.map_append, List.map_append,
      ih htail htail', ht.emit hhead hhead']

end Transform

/-- Only the transforms of a chain are written. -/
theorem FlowStep.flatMap_emit (assigned : Nat → String → String) (steps : List FlowStep) :
    steps.flatMap (·.emit assigned) = (transforms steps).flatMap (·.emit assigned) := by
  unfold transforms
  rw [List.filterMap_eq_flatMap_toList, List.flatMap_assoc]
  refine List.flatMap_congr fun s _ => ?_
  cases s with
  | transform t => exact (List.append_nil _).symm
  | source s | output name => rfl

namespace Registry

variable {r : Registry} {outputs : List (String × List FlowStep)}

/-- The values that are fingerprinted when some outputs are linked. -/
def hashedOf (outputs : List (String × List FlowStep)) : List Json :=
  outputs.flatMap fun e => (Pipeline.ofSteps e.2).hashed

theorem hashed_subset_hashedOf {e : String × List FlowStep} (he : e ∈ outputs) :
    (Pipeline.ofSteps e.2).hashed ⊆ hashedOf outputs :=
  fun _ hj => List.mem_flatMap.2 ⟨e, he, hj⟩

/-- The owner of a chain is the first output that has it. -/
theorem exists_first_of_owner? {chain m : String}
    (h : owner? (pipelines outputs) chain = some m) :
    ∃ before first after, outputs = before ++ (m, first) :: after ∧
      (Pipeline.ofSteps first).chain? = some chain ∧
        ∀ e ∈ before, (Pipeline.ofSteps e.2).chain? ≠ some chain := by
  unfold owner? pipelines at h
  rw [List.find?_map, Option.map_map, Option.map_eq_some_iff] at h
  obtain ⟨⟨n, first⟩, hfind, rfl⟩ := h
  obtain ⟨hfirst, before, after, houtputs, hbefore⟩ := List.find?_eq_some_iff_append.1 hfind
  refine ⟨before, first, after, houtputs, by simpa using hfirst, ?_⟩
  intro e he
  simpa using hbefore e he

/-- A derived dataset that is written out. -/
theorem derived_mem_emit_iff {assigned : Nat → String → String} {n source : String}
    {ts : List Json} : .derived n source ts ∈ r.emit assigned ↔
      ∃ p s, (n, p) ∈ r.derived.entries ∧ r.isConsulted n = true ∧ p.source = some s ∧
        s.name = source ∧ p.transforms.flatMap (·.emit assigned) = ts := by
  unfold emit wanted
  constructor
  · intro h
    rcases List.mem_append.1 h with h | h
    · obtain ⟨s, -, h⟩ := List.mem_map.1 h
      cases h
    · obtain ⟨⟨m, p⟩, hp, h⟩ := List.mem_filterMap.1 h
      obtain ⟨hmem, hconsulted⟩ := List.mem_filter.1 hp
      obtain ⟨s, hs, h⟩ := Option.map_eq_some_iff.1 h
      cases h
      exact ⟨p, s, hmem, hconsulted, hs, rfl, rfl⟩
  · rintro ⟨p, s, hmem, hconsulted, hs, rfl, rfl⟩
    refine List.mem_append_right _ (List.mem_filterMap.2 ⟨(n, p), ?_, ?_⟩)
    · exact List.mem_filter.2 ⟨hmem, hconsulted⟩
    · show p.source.map _ = _
      rw [hs]
      rfl

/-! ## Linked outputs -/

/-- Whether an output was registered with a chain from a source through transforms. -/
structure Derives (outputs : List (String × List FlowStep)) (n : String) (steps : List FlowStep)
    (s : Source) : Prop where
  mem : (n, steps) ∈ outputs
  source : FlowStep.origin? steps = some s
  transforms : FlowStep.transforms steps ≠ []

variable {n m chain : String} {steps first : List FlowStep} {s : Source}

theorem Reached.backs_of_no_source (h : Reached outputs r) (hmem : (n, steps) ∈ outputs)
    (hsource : FlowStep.origin? steps = none) : r.link.backs n = false := by
  have hchain : (Pipeline.ofSteps steps).chain? = none := by
    unfold Pipeline.ofSteps Pipeline.chain?
    rw [hsource]
  unfold backs OrderedMap.contains
  rw [h.get?_concrete_link hmem, target?_of_no_chain hchain]
  show (Option.map _ (FlowStep.origin? steps)).isSome = false
  rw [hsource]
  rfl

theorem Reached.get?_concrete_of_no_transforms (h : Reached outputs r)
    (hmem : (n, steps) ∈ outputs) (hsource : FlowStep.origin? steps = some s)
    (hnil : FlowStep.transforms steps = []) : r.link.concrete.get? n = some s.name := by
  have hpipeline : Pipeline.ofSteps steps = ⟨some s, []⟩ := by
    rw [Pipeline.ofSteps, hsource, hnil]
  rw [h.get?_concrete_link hmem, hpipeline]
  rfl

/-- An output with transforms is linked to the owner of its chain, the first output that has it. -/
theorem Reached.exists_first (h : Reached outputs r) (hn : Derives outputs n steps s) :
    ∃ chain before m first after, (Pipeline.ofSteps steps).chain? = some chain ∧
      owner? (pipelines outputs) chain = some m ∧ r.link.concrete.get? n = some m ∧
      outputs = before ++ (m, first) :: after ∧ (Pipeline.ofSteps first).chain? = some chain ∧
        ∀ e ∈ before, (Pipeline.ofSteps e.2).chain? ≠ some chain := by
  obtain ⟨t, ts, hts⟩ := List.exists_cons_of_ne_nil hn.transforms
  have hchain : (Pipeline.ofSteps steps).chain? = some (chainFingerprint s (t :: ts)) := by
    rw [Pipeline.ofSteps, hn.source, hts]
    rfl
  obtain ⟨m, hm⟩ := exists_owner? (mem_pipelines hn.mem) hchain
  obtain ⟨before, first, after, houtputs, hfirst, hbefore⟩ := exists_first_of_owner? hm
  refine ⟨_, before, m, first, after, hchain, hm, ?_, houtputs, hfirst, hbefore⟩
  rw [h.get?_concrete_link hn.mem, target?_of_chain hchain, hm]

/-- A chain has one owner, and an owner has one chain. -/
theorem Reached.owner?_eq_iff (h : Reached outputs r) {chain' m' : String}
    (hm : owner? (pipelines outputs) chain = some m)
    (hm' : owner? (pipelines outputs) chain' = some m') : m = m' ↔ chain = chain' := by
  constructor
  · rintro rfl
    obtain ⟨p, hp, hchain⟩ := mem_of_owner? hm
    obtain ⟨p', hp', hchain'⟩ := mem_of_owner? hm'
    rw [h.pipeline_unique hp hp', hchain'] at hchain
    exact (Option.some.inj hchain).symm
  · rintro rfl
    exact Option.some.inj (hm.symm.trans hm')

/-- The dataset of an owner is written out with the owner's transforms if it is consulted. -/
theorem Reached.derived_mem_emit_iff (h : Reached outputs r) (hmem : (m, first) ∈ outputs)
    (hchain : (Pipeline.ofSteps first).chain? = some chain)
    (hm : owner? (pipelines outputs) chain = some m) {assigned : Nat → String → String}
    {names : List String} {source : String} {ts : List Json} :
    .derived m source ts ∈ (r.link.note names).emit assigned ↔
      (r.link.note names).isConsulted m = true ∧
        (FlowStep.origin? first).map Source.name = some source ∧
          (FlowStep.transforms first).flatMap (·.emit assigned) = ts := by
  have hentry : ∀ p, (m, p) ∈ (r.link.note names).derived.entries ↔ p = .ofSteps first := by
    intro p
    show (m, p) ∈ r.link.derived.entries ↔ _
    rw [h.linkedThrough.derived, List.mem_filter]
    constructor
    · rintro ⟨hp, -⟩
      exact h.pipeline_unique hp (mem_pipelines hmem)
    · rintro rfl
      refine ⟨mem_pipelines hmem, ?_⟩
      rw [owns_eq_of_chain hchain, hm]
      exact beq_self_eq_true _
  rw [Registry.derived_mem_emit_iff]
  constructor
  · rintro ⟨p, s, hp, hconsulted, hs, rfl, rfl⟩
    obtain rfl := (hentry p).1 hp
    exact ⟨hconsulted, congrArg (Option.map Source.name) hs, rfl⟩
  · rintro ⟨hconsulted, hsource, rfl⟩
    obtain ⟨s, hs, rfl⟩ := Option.map_eq_some_iff.1 hsource
    exact ⟨_, s, (hentry _).2 rfl, hconsulted, hs, rfl, rfl⟩

/-- Exactly the outputs whose pipelines are the same have one chain. -/
theorem chain?_eq_iff (hfree : Json.CollisionFree (hashedOf outputs))
    (hn : (n, steps) ∈ outputs) (hm : (m, first) ∈ outputs)
    (hchain : (Pipeline.ofSteps steps).chain? = some chain) :
    (Pipeline.ofSteps first).chain? = some chain ↔
      (Pipeline.ofSteps first).Same (.ofSteps steps) :=
  Pipeline.chain?_eq_iff_same hfree (hashed_subset_hashedOf hn) (hashed_subset_hashedOf hm) hchain

/-- After linking, an output without a source is not backed, one without transforms is linked to its
source, and one with transforms to the first output whose pipeline is the same. So outputs with
transforms share a dataset exactly if their pipelines are the same. If all projections are looked up
in one way, the dataset is written out as the transforms of each of these outputs would be. -/
theorem Reached.link_spec (h : Reached outputs r) (hfree : Json.CollisionFree (hashedOf outputs)) :
    (∀ n steps, (n, steps) ∈ outputs → FlowStep.origin? steps = none → r.link.backs n = false) ∧
    (∀ n steps s, (n, steps) ∈ outputs → FlowStep.origin? steps = some s →
      FlowStep.transforms steps = [] → r.link.concrete.get? n = some s.name) ∧
    (∀ n steps s, Derives outputs n steps s → ∃ before m first after,
      outputs = before ++ (m, first) :: after ∧ Pipeline.Same (.ofSteps first) (.ofSteps steps) ∧
        (∀ e ∈ before, ¬ Pipeline.Same (.ofSteps e.2) (.ofSteps steps)) ∧
        r.link.concrete.get? n = some m) ∧
    (∀ n steps s n' steps' s', Derives outputs n steps s → Derives outputs n' steps' s' →
      (r.link.concreteName n = r.link.concreteName n' ↔
        Pipeline.Same (.ofSteps steps) (.ofSteps steps'))) ∧
    ∀ assigned resolve,
      (∀ e ∈ outputs, ∀ t ∈ FlowStep.transforms e.2, t.ResolvesBy assigned resolve) →
      ∀ n steps s names, Derives outputs n steps s →
        ((r.link.note names).isConsulted (r.link.concreteName n) = true →
          ∃ ts, .derived (r.link.concreteName n) s.name ts ∈ (r.link.note names).emit assigned) ∧
        ∀ source ts, .derived (r.link.concreteName n) source ts ∈ (r.link.note names).emit assigned →
          source = s.name ∧
            ts.map Json.sorted = (steps.flatMap (·.emit assigned)).map Json.sorted := by
  refine ⟨fun n steps hmem => h.backs_of_no_source hmem,
    fun n steps s hmem => h.get?_concrete_of_no_transforms hmem, ?first, ?shared, ?written⟩
  case first =>
    intro n steps s hn
    obtain ⟨chain, before, m, first, after, hchain, -, hget, houtputs, hfirst, hbefore⟩ :=
      h.exists_first hn
    have hmem : (m, first) ∈ outputs := by simp [houtputs]
    refine ⟨before, m, first, after, houtputs, ?_, ?_, hget⟩
    · exact (chain?_eq_iff hfree hn.mem hmem hchain).1 hfirst
    · intro e he hsame
      have he' : e ∈ outputs := houtputs ▸ List.mem_append_left _ he
      exact hbefore e he ((chain?_eq_iff hfree hn.mem he' hchain).2 hsame)
  case shared =>
    intro n steps s n' steps' s' hn hn'
    obtain ⟨chain, -, m, -, -, hchain, hm, hget, -⟩ := h.exists_first hn
    obtain ⟨chain', -, m', -, -, hchain', hm', hget', -⟩ := h.exists_first hn'
    have hequal : chain = chain' ↔ (Pipeline.ofSteps steps).chain? = some chain' := by
      rw [hchain, Option.some.injEq]
    unfold concreteName
    rw [hget, hget', Option.getD_some, Option.getD_some, h.owner?_eq_iff hm hm', hequal]
    exact chain?_eq_iff hfree hn'.mem hn.mem hchain'
  case written =>
    intro assigned resolve hresolve n steps s names hn
    obtain ⟨chain, before, m, first, after, hchain, hm, hget, houtputs, hfirst, -⟩ :=
      h.exists_first hn
    have hmem : (m, first) ∈ outputs := by simp [houtputs]
    have hsame := (chain?_eq_iff hfree hn.mem hmem hchain).1 hfirst
    have hsource : (FlowStep.origin? first).map Source.name = some s.name :=
      hsame.source.trans (congrArg (Option.map Source.name) hn.source)
    unfold concreteName
    rw [hget, Option.getD_some]
    refine ⟨fun hconsulted => ⟨_, (h.derived_mem_emit_iff hmem hfirst hm).2
      ⟨hconsulted, hsource, rfl⟩⟩, ?_⟩
    intro source ts hts
    obtain ⟨-, hname, rfl⟩ := (h.derived_mem_emit_iff hmem hfirst hm).1 hts
    refine ⟨Option.some.inj (hname.symm.trans hsource), ?_⟩
    rw [FlowStep.flatMap_emit]
    exact Transform.map_sorted_flatMap_emit hsame.transforms (hresolve _ hmem) (hresolve _ hn.mem)

/-- Places that are projected, as seen from a view. -/
def projectedPlaces (view : Nat) : List FlowStep :=
  [.source ⟨"source_0", .null⟩,
    .transform (.geopoint "projection" [.field "lon", .field "lat"] ["x", "y"] (some view))]

/-- Outputs that two views project alike share a dataset, also if the first one was linked before
the second one was registered. An output beside them reads the rows, and one has no source. -/
theorem link_spec_projectedPlaces :
    let linked := ((start .empty false).register "concat_0_main" (.ofSteps (projectedPlaces 1))).link
    let places := linked.register "concat_1_main" (.ofSteps (projectedPlaces 2))
    let rows := places.register "concat_2_main" (.ofSteps [.source ⟨"source_0", .null⟩])
    let all := (rows.register "concat_3_main" (.ofSteps [])).link
    all.concreteName "concat_0_main" = all.concreteName "concat_1_main" ∧
      all.concrete.get? "concat_2_main" = some "source_0" ∧ all.backs "concat_3_main" = false := by
  have hlinked := ((Reached.start .empty false).register "concat_0_main" (projectedPlaces 1)
    List.not_mem_nil).link
  have hplaces := hlinked.register "concat_1_main" (projectedPlaces 2) (by decide)
  have hrows := hplaces.register "concat_2_main" [.source ⟨"source_0", .null⟩] (by decide)
  have hall := hrows.register "concat_3_main" [] (by decide)
  have hdistinct : ((Pipeline.ofSteps (projectedPlaces 1)).hashed.map Json.fingerprint).Nodup := by
    decide +kernel
  -- the view is not fingerprinted, so the second output adds no other value
  have hfree := (Json.collisionFree_of_nodup hdistinct).mono
    (List.append_subset.2 ⟨List.Subset.refl _, List.Subset.refl _⟩)
  obtain ⟨hunbacked, hroot, -, hshared, -⟩ := hall.link_spec hfree
  refine ⟨?_, ?_, ?_⟩
  · refine (hshared "concat_0_main" (projectedPlaces 1) _ "concat_1_main" (projectedPlaces 2) _
      ⟨by simp, rfl, by decide⟩ ⟨by simp, rfl, by decide⟩).2 ⟨rfl, ?_⟩
    exact .cons (.geopoint (.cons rfl (.cons rfl .nil)) _ _ _ _) .nil
  · exact hroot "concat_2_main" [.source ⟨"source_0", .null⟩] _ (by simp) rfl rfl
  · exact hunbacked "concat_3_main" [] (by simp) rfl

end Registry

end ChartLowering
