import ChartLowering.Proofs.Dataset.Linking
import ChartLowering.Proofs.Dataset.Roots

/-
  Linking after outputs were linked before.

  Datasets may be linked more than once, and outputs may be registered in between. The outputs that
  were linked before come first, and linking them anew changes nothing (`Relinked.foldl`), because
  each is linked to what it was linked to. So after the last linking all outputs are linked as if
  none had been linked before it (`Reached.linkedThrough`).
-/

namespace ChartLowering

namespace FlowStep

/-- The transforms of a chain of steps. -/
def transforms (steps : List FlowStep) : List Transform := steps.filterMap transform?

end FlowStep

/-- The pipeline of a chain of steps, the first step first. -/
def Pipeline.ofSteps (steps : List FlowStep) : Pipeline :=
  ⟨FlowStep.origin? steps, FlowStep.transforms steps⟩

namespace Registry

variable {r q : Registry} {known done rest : List (String × Pipeline)} {name : String}
  {p : Pipeline} {state : OrderedMap String String × Registry}

/-- Whether the outputs that are linked are these. -/
structure LinkedThrough (known : List (String × Pipeline)) (r : Registry) : Prop where
  concrete : ∀ n, r.concrete.get? n = (OrderedMap.find? n known).bind (target? known)
  derived : r.derived.entries = known.filter (owns known)

/-- An output that is linked anew to what it is linked to. -/
theorem LinkedThrough.insert_concrete (h : r.LinkedThrough known)
    (hp : OrderedMap.find? name known = some p) {m : String} (hm : target? known p = some m) :
    LinkedThrough known { r with concrete := r.concrete.insert name m } where
  concrete n := by
    rw [OrderedMap.get?_insert]
    by_cases hn : n = name
    · rw [if_pos hn, hn, hp, Option.bind_some, hm]
    · rw [if_neg hn]
      exact h.concrete n
  derived := h.derived

/-- An owner's dataset is there already. -/
theorem LinkedThrough.insert_derived (h : r.LinkedThrough known)
    (hnodup : (known.map Prod.fst).Nodup) (hp : (name, p) ∈ known)
    (howns : owns known (name, p) = true) : r.derived.insert name p = r.derived := by
  refine OrderedMap.insert_of_get? (OrderedMap.get?_of_mem ?_ ?_)
  · unfold OrderedMap.keys
    rw [h.derived]
    exact hnodup.sublist (List.filter_sublist.map Prod.fst)
  · rw [h.derived]
    exact List.mem_filter.2 ⟨hp, howns⟩

/-- What linking anew has come to after some of the outputs that are linked: nothing has changed. -/
structure Relinked (r : Registry) (known done : List (String × Pipeline))
    (state : OrderedMap String String × Registry) : Prop where
  owners : ∀ chain, state.1.get? chain = owner? done chain
  through : state.2.LinkedThrough known
  frame : ∃ concrete derived, state.2 = { r with concrete := concrete, derived := derived }

/-- An output that is linked already. -/
theorem Relinked.linkOutput (h : Relinked r known done state)
    (hknown : known = done ++ (name, p) :: rest) (hnodup : (known.map Prod.fst).Nodup) :
    Relinked r known (done ++ [(name, p)]) (linkOutput state (name, p)) := by
  have hmem : (name, p) ∈ known := by
    rw [hknown]
    exact List.mem_append_right _ List.mem_cons_self
  have hfind : OrderedMap.find? name known = some p :=
    OrderedMap.get?_of_mem (m := ⟨known⟩) hnodup hmem
  obtain ⟨concrete, derived, hframe⟩ := h.frame
  cases hchain : p.chain? with
  | none =>
    have howners : ∀ c, state.1.get? c = owner? (done ++ [(name, p)]) c :=
      owners_concat_of_no_chain h.owners hchain
    have htarget := target?_of_no_chain hchain known
    rw [linkOutput_of_no_chain hchain]
    cases hsource : p.source with
    | none => exact ⟨howners, h.through, h.frame⟩
    | some s =>
      rw [hsource] at htarget
      exact ⟨howners, h.through.insert_concrete hfind htarget, _, derived, by rw [hframe]⟩
  | some chain =>
    have htarget := target?_of_chain hchain known
    have hfirst : owner? known chain = (owner? done chain).or (some name) := by
      have hself : owner? ((name, p) :: rest) chain = some name := by
        unfold owner?
        rw [List.find?_cons_of_pos (by simpa using hchain)]
        rfl
      rw [hknown, owner?_append, hself]
    cases howner : owner? done chain with
    | none =>
      rw [howner, Option.none_or] at hfirst
      have howns : owns known (name, p) = true := by
        rw [owns_eq_of_chain hchain, hfirst]
        exact beq_self_eq_true _
      rw [linkOutput_of_new hchain ((h.owners chain).trans howner),
        h.through.insert_derived hnodup hmem howns]
      exact ⟨owners_concat_of_new h.owners hchain howner,
        h.through.insert_concrete hfind (htarget.trans hfirst), _, derived, by rw [hframe]⟩
    | some owner =>
      rw [howner, Option.some_or] at hfirst
      rw [linkOutput_of_owner hchain ((h.owners chain).trans howner)]
      exact ⟨owners_concat_of_owner h.owners hchain howner,
        h.through.insert_concrete hfind (htarget.trans hfirst), _, derived, by rw [hframe]⟩

/-- All outputs that are linked already. -/
theorem Relinked.foldl (h : Relinked r known done state) {todo : List (String × Pipeline)}
    (hknown : known = done ++ todo) (hnodup : (known.map Prod.fst).Nodup) :
    Relinked r known known (todo.foldl Registry.linkOutput state) := by
  induction todo generalizing done state with
  | nil =>
    rw [List.append_nil] at hknown
    subst hknown
    exact h
  | cons e rest ih =>
    refine ih (h.linkOutput hknown hnodup) ?_
    rw [hknown, List.append_assoc, List.singleton_append]

/-- All outputs of a registry in which the first of them are linked. -/
theorem LinkedThrough.linked_link (h : r.LinkedThrough known)
    (hentries : r.outputs.entries = known ++ rest) (hnodup : r.outputs.keys.Nodup) :
    Linked r r.outputs.entries (r.outputs.entries.foldl Registry.linkOutput (.empty, r)) := by
  have hall : ((known ++ rest).map Prod.fst).Nodup := hentries ▸ hnodup
  have hknown : (known.map Prod.fst).Nodup := by
    rw [List.map_append] at hall
    exact (List.nodup_append.1 hall).1
  have hstart : Relinked r known [] (.empty, r) := ⟨fun _ => rfl, h, _, _, rfl⟩
  have hagain := hstart.foldl rfl hknown
  have hlinked : Linked r known (known.foldl Registry.linkOutput (.empty, r)) :=
    ⟨hagain.owners, hagain.through.concrete, hagain.through.derived, hagain.frame⟩
  rw [hentries, List.foldl_append]
  exact hlinked.foldl rest hall

/-! ## Whatever came before -/

/-- What a registry can be, and the outputs that were registered in it, each with its chain of steps
and under a name of its own. -/
inductive Reached : List (String × List FlowStep) → Registry → Prop where
  | start (declared : OrderedMap String Json) (strict : Bool) : Reached [] (start declared strict)
  | sourceFor {outputs : List (String × List FlowStep)} {r q : Registry} {d : DataSpec} {s : Source} :
      Reached outputs r → r.sourceFor d = .ok (s, q) → Reached outputs q
  | note {outputs : List (String × List FlowStep)} {r : Registry} (names : List String) :
      Reached outputs r → Reached outputs (r.note names)
  | register {outputs : List (String × List FlowStep)} {r : Registry} (name : String)
      (steps : List FlowStep) : Reached outputs r → name ∉ outputs.map Prod.fst →
      Reached (outputs ++ [(name, steps)]) (r.register name (.ofSteps steps))
  | link {outputs : List (String × List FlowStep)} {r : Registry} :
      Reached outputs r → Reached outputs r.link

/-- The outputs with their pipelines. -/
def pipelines (outputs : List (String × List FlowStep)) : List (String × Pipeline) :=
  outputs.map fun e => (e.1, .ofSteps e.2)

theorem map_fst_pipelines (outputs : List (String × List FlowStep)) :
    (pipelines outputs).map Prod.fst = outputs.map Prod.fst := by
  unfold pipelines
  rw [List.map_map]
  rfl

theorem mem_pipelines {outputs : List (String × List FlowStep)} {n : String}
    {steps : List FlowStep} (h : (n, steps) ∈ outputs) :
    (n, Pipeline.ofSteps steps) ∈ pipelines outputs :=
  List.mem_map.2 ⟨(n, steps), h, rfl⟩

/-- The outputs that were registered are there, and those up to the last linking are linked. -/
structure Kept (outputs : List (String × List FlowStep)) (r : Registry) : Prop where
  entries : r.outputs.entries = pipelines outputs
  nodup : r.outputs.keys.Nodup
  through : ∃ known rest, r.outputs.entries = known ++ rest ∧ r.LinkedThrough known

variable {outputs : List (String × List FlowStep)}

/-- Only outputs and what they are linked to count. -/
theorem Kept.congr (h : Kept outputs r) (houtputs : q.outputs = r.outputs)
    (hconcrete : q.concrete = r.concrete) (hderived : q.derived = r.derived) : Kept outputs q where
  entries := houtputs ▸ h.entries
  nodup := houtputs ▸ h.nodup
  through := by
    obtain ⟨known, rest, hentries, hthrough⟩ := h.through
    exact ⟨known, rest, houtputs ▸ hentries, hconcrete ▸ hthrough.concrete,
      hderived ▸ hthrough.derived⟩

theorem Kept.register (h : Kept outputs r) (hname : name ∉ outputs.map Prod.fst)
    (steps : List FlowStep) : Kept (outputs ++ [(name, steps)]) (r.register name (.ofSteps steps)) := by
  have hkey : name ∉ r.outputs.keys := by
    unfold OrderedMap.keys
    rwa [h.entries, map_fst_pipelines]
  have hadded : (r.register name (.ofSteps steps)).outputs.entries =
      r.outputs.entries ++ [(name, .ofSteps steps)] := OrderedMap.entries_insert_of_notMem hkey _
  obtain ⟨known, rest, hentries, hthrough⟩ := h.through
  refine ⟨?_, OrderedMap.nodup_keys_insert h.nodup _ _, known, rest ++ [(name, .ofSteps steps)], ?_,
    hthrough.concrete, hthrough.derived⟩
  · rw [hadded, h.entries]
    unfold pipelines
    rw [List.map_append, List.map_singleton]
  · rw [hadded, hentries, List.append_assoc]

theorem Kept.link (h : Kept outputs r) : Kept outputs r.link := by
  obtain ⟨known, rest, hentries, hthrough⟩ := h.through
  have hlinked := hthrough.linked_link hentries h.nodup
  have houtputs : r.link.outputs = r.outputs := by
    obtain ⟨concrete, derived, hlink⟩ := link_frame r
    rw [hlink]
  refine ⟨houtputs ▸ h.entries, houtputs ▸ h.nodup, r.outputs.entries, [], ?_, ?_⟩
  · rw [houtputs, List.append_nil]
  · exact ⟨hlinked.concrete, hlinked.derived⟩

theorem Reached.kept (h : Reached outputs r) : Kept outputs r := by
  induction h with
  | start declared strict => exact ⟨rfl, List.nodup_nil, [], [], rfl, fun _ => rfl, rfl⟩
  | sourceFor _ hs ih =>
    rcases sourceFor_cases hs with ⟨-, rfl⟩ | ⟨-, -, rfl⟩
    · exact ih
    · exact ih.congr rfl rfl rfl
  | note names _ ih => exact ih.congr rfl rfl rfl
  | register name steps _ hname ih => exact ih.register hname steps
  | link _ ih => exact ih.link

theorem Reached.nodup_pipelines (h : Reached outputs r) :
    ((pipelines outputs).map Prod.fst).Nodup := by
  have hkeys := h.kept.nodup
  unfold OrderedMap.keys at hkeys
  rwa [h.kept.entries] at hkeys

theorem Reached.find?_pipelines (h : Reached outputs r) {n : String}
    (hp : (n, p) ∈ pipelines outputs) : OrderedMap.find? n (pipelines outputs) = some p :=
  OrderedMap.get?_of_mem (m := ⟨pipelines outputs⟩) h.nodup_pipelines hp

theorem Reached.pipeline_unique (h : Reached outputs r) {n : String} {p p' : Pipeline}
    (hp : (n, p) ∈ pipelines outputs) (hp' : (n, p') ∈ pipelines outputs) : p = p' :=
  Option.some.inj ((h.find?_pipelines hp).symm.trans (h.find?_pipelines hp'))

/-- After linking, all outputs are linked, whatever was linked before. -/
theorem Reached.linkedThrough (h : Reached outputs r) :
    r.link.LinkedThrough (pipelines outputs) := by
  obtain ⟨known, rest, hentries, hthrough⟩ := h.kept.through
  have hlinked := hthrough.linked_link hentries h.kept.nodup
  rw [← h.kept.entries]
  exact ⟨hlinked.concrete, hlinked.derived⟩

/-- An output is linked to its source, or to the owner of its chain. -/
theorem Reached.get?_concrete_link (h : Reached outputs r) {n : String} {steps : List FlowStep}
    (hmem : (n, steps) ∈ outputs) :
    r.link.concrete.get? n = target? (pipelines outputs) (.ofSteps steps) := by
  rw [h.linkedThrough.concrete n, h.find?_pipelines (mem_pipelines hmem)]
  rfl

end Registry

end ChartLowering
