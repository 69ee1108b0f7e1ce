import ChartLowering.Dataset.Registry
import Mathlib.Data.List.Nodup

/-
  Linking outputs to datasets.

  A chain, the fingerprint of a source's name and of the transforms after it, belongs to the first
  output that has it (`owner?`). An output with a chain is linked to the owner of the chain, which has
  the derived dataset; an output without transforms is linked to its source (`target?`). `get?_concrete_link`
  and `derived_link` say so of all outputs with distinct names, whatever their pipelines are.
-/

namespace ChartLowering

theorem OrderedMap.find?_concat {κ α : Type} [DecidableEq κ] (l : List (κ × α)) (k j : κ) (a : α) :
    find? j (l ++ [(k, a)]) = (find? j l).or (if j = k then some a else none) := by
  induction l with
  | nil => simp [find?]
  | cons e rest ih =>
    rw [List.cons_append, find?, find?, ih]
    split <;> rfl

/-- What tells the derived dataset of a pipeline from others, if the pipeline has one. -/
def Pipeline.chain? (p : Pipeline) : Option String :=
  match p.source, p.transforms with
  | some s, t :: ts => some (Registry.chainFingerprint s (t :: ts))
  | _, _ => none

theorem Pipeline.chain?_eq_some {p : Pipeline} {chain : String} (h : p.chain? = some chain) :
    ∃ s t ts, p = ⟨some s, t :: ts⟩ ∧ chain = Registry.chainFingerprint s (t :: ts) := by
  obtain ⟨source, transforms⟩ := p
  unfold chain? at h
  split at h
  · rename_i s t ts hsource htransforms
    simp only at hsource htransforms
    subst hsource htransforms
    exact ⟨s, t, ts, rfl, (Option.some.inj h).symm⟩
  · cases h

namespace Registry

variable {r : Registry} {done : List (String × Pipeline)} {e : String × Pipeline} {chain : String}

/-- The first of some outputs with a chain. -/
def owner? (outputs : List (String × Pipeline)) (chain : String) : Option String :=
  (outputs.find? fun e => e.2.chain? == some chain).map Prod.fst

/-- What a pipeline among some outputs is linked to. -/
def target? (outputs : List (String × Pipeline)) (p : Pipeline) : Option String :=
  match p.chain? with
  | some chain => owner? outputs chain
  | none => p.source.map Source.name

/-- Whether an output among others has a derived dataset of its own. -/
def owns (outputs : List (String × Pipeline)) (e : String × Pipeline) : Bool :=
  e.2.chain?.any fun chain => owner? outputs chain == some e.1

/-! ## Owners -/

theorem owner?_append (done rest : List (String × Pipeline)) (chain : String) :
    owner? (done ++ rest) chain = (owner? done chain).or (owner? rest chain) := by
  unfold owner?
  rw [List.find?_append, Option.map_or]

theorem owner?_concat (done : List (String × Pipeline)) (e : String × Pipeline) (chain : String) :
    owner? (done ++ [e]) chain =
      (owner? done chain).or (if e.2.chain? = some chain then some e.1 else none) := by
  rw [owner?_append]
  congr 1
  unfold owner?
  by_cases h : e.2.chain? = some chain <;> simp [h]

theorem mem_of_owner? {chain n : String} (h : owner? done chain = some n) :
    ∃ p, (n, p) ∈ done ∧ p.chain? = some chain := by
  obtain ⟨e, he, rfl⟩ := Option.map_eq_some_iff.1 h
  exact ⟨e.2, List.mem_of_find?_eq_some he, by simpa using List.find?_some he⟩

theorem exists_owner? (he : e ∈ done) {chain : String} (hchain : e.2.chain? = some chain) :
    ∃ n, owner? done chain = some n := by
  have hsome : (done.find? fun e => e.2.chain? == some chain).isSome = true :=
    List.find?_isSome.2 ⟨e, he, by simp [hchain]⟩
  obtain ⟨o, ho⟩ := Option.isSome_iff_exists.1 hsome
  exact ⟨o.1, by rw [owner?, ho]; rfl⟩

theorem target?_of_chain {p : Pipeline} {chain : String} (h : p.chain? = some chain)
    (outputs : List (String × Pipeline)) : target? outputs p = owner? outputs chain := by
  rw [target?, h]

theorem target?_of_no_chain {p : Pipeline} (h : p.chain? = none)
    (outputs : List (String × Pipeline)) : target? outputs p = p.source.map Source.name := by
  rw [target?, h]

/-- A further output does not change what those before it are linked to. -/
theorem target?_concat (he : e ∈ done) (x : String × Pipeline) :
    target? (done ++ [x]) e.2 = target? done e.2 := by
  unfold target?
  split
  · rename_i chain hchain
    obtain ⟨n, hn⟩ := exists_owner? he hchain
    rw [owner?_concat, hn]
    rfl
  · rfl

/-- An output owns a derived dataset exactly if it owns its chain. -/
theorem owns_eq_of_chain (hchain : e.2.chain? = some chain) (outputs : List (String × Pipeline)) :
    owns outputs e = (owner? outputs chain == some e.1) := by
  rw [owns, hchain]
  rfl

theorem owns_concat (he : e ∈ done) (x : String × Pipeline) :
    owns (done ++ [x]) e = owns done e := by
  cases hchain : e.2.chain? with
  | none =>
    rw [owns, owns, hchain]
    rfl
  | some chain =>
    obtain ⟨n, hn⟩ := exists_owner? he hchain
    rw [owns_eq_of_chain hchain, owns_eq_of_chain hchain, owner?_concat, hn]
    rfl

section Tables

variable {owners : OrderedMap String String} {name chain : String} {p : Pipeline}

theorem owners_concat_of_no_chain (h : ∀ c, owners.get? c = owner? done c) (hchain : p.chain? = none)
    (c : String) : owners.get? c = owner? (done ++ [(name, p)]) c := by
  rw [owner?_concat, hchain, if_neg (by simp), Option.or_none]
  exact h c

/-- A table of owners serves also for a further output with a chain that has an owner. -/
theorem owners_concat_of_owner (h : ∀ c, owners.get? c = owner? done c)
    (hchain : p.chain? = some chain) {owner : String} (howner : owner? done chain = some owner)
    (c : String) : owners.get? c = owner? (done ++ [(name, p)]) c := by
  rw [owner?_concat, hchain]
  by_cases hc : c = chain
  · rw [hc, howner]
    exact (h chain).trans howner
  · rw [if_neg (by simpa using Ne.symm hc), Option.or_none]
    exact h c

/-- The first output with its chain is entered as the owner. -/
theorem owners_concat_of_new (h : ∀ c, owners.get? c = owner? done c)
    (hchain : p.chain? = some chain) (hnew : owner? done chain = none) (c : String) :
    (owners.insert chain name).get? c = owner? (done ++ [(name, p)]) c := by
  rw [owner?_concat, hchain, OrderedMap.get?_insert]
  by_cases hc : c = chain
  · rw [if_pos hc, hc, hnew, if_pos rfl]
    rfl
  · rw [if_neg hc, if_neg (by simpa using Ne.symm hc), Option.or_none]
    exact h c

end Tables

/-! ## One output after the other -/

/-- What linking has come to after some outputs, from a registry without links. -/
structure Linked (r : Registry) (done : List (String × Pipeline))
    (state : OrderedMap String String × Registry) : Prop where
  owners : ∀ chain, state.1.get? chain = owner? done chain
  concrete : ∀ n, state.2.concrete.get? n = (OrderedMap.find? n done).bind (target? done)
  derived : state.2.derived.entries = done.filter (owns done)
  frame : ∃ concrete derived, state.2 = { r with concrete := concrete, derived := derived }

variable {state : OrderedMap String String × Registry} {name : String} {p : Pipeline}

/-- Linking an output without a chain. -/
theorem linkOutput_of_no_chain (h : p.chain? = none)
    (state : OrderedMap String String × Registry) (name : String) :
    Registry.linkOutput state (name, p) = (state.1, { state.2 with
      concrete := (p.source.map fun s => state.2.concrete.insert name s.name).getD
        state.2.concrete }) := by
  obtain ⟨source, transforms⟩ := p
  cases source with
  | none => rfl
  | some s =>
    cases transforms with
    | nil => rfl
    | cons t ts => cases h

/-- Linking an output with a chain that has an owner. -/
theorem linkOutput_of_owner {chain owner : String} (h : p.chain? = some chain)
    (howner : state.1.get? chain = some owner) (name : String) :
    Registry.linkOutput state (name, p) =
      (state.1, { state.2 with concrete := state.2.concrete.insert name owner }) := by
  obtain ⟨s, t, ts, rfl, rfl⟩ := Pipeline.chain?_eq_some h
  unfold Registry.linkOutput
  simp only [howner]

/-- Linking the first output with some chain. -/
theorem linkOutput_of_new {chain : String} (h : p.chain? = some chain)
    (hnew : state.1.get? chain = none) (name : String) :
    Registry.linkOutput state (name, p) = (state.1.insert chain name,
      { state.2 with
        concrete := state.2.concrete.insert name name
        derived := state.2.derived.insert name p }) := by
  obtain ⟨s, t, ts, rfl, rfl⟩ := Pipeline.chain?_eq_some h
  unfold Registry.linkOutput
  simp only [hnew]

/-- Linking makes links and derived datasets only. -/
theorem link_frame (r : Registry) :
    ∃ concrete derived, r.link = { r with concrete := concrete, derived := derived } := by
  unfold link
  refine List.foldlRecOn r.outputs.entries Registry.linkOutput
    (motive := fun (state : OrderedMap String String × Registry) =>
      ∃ concrete derived, state.2 = { r with concrete := concrete, derived := derived })
    ⟨_, _, rfl⟩ ?_
  rintro state ⟨concrete, derived, hstate⟩ ⟨name, p⟩ -
  cases hchain : p.chain? with
  | none =>
    rw [linkOutput_of_no_chain hchain]
    exact ⟨_, derived, by rw [hstate]⟩
  | some chain =>
    cases howner : state.1.get? chain with
    | none =>
      rw [linkOutput_of_new hchain howner]
      exact ⟨_, _, by rw [hstate]⟩
    | some owner =>
      rw [linkOutput_of_owner hchain howner]
      exact ⟨_, derived, by rw [hstate]⟩

/-- After one more output only its own name is linked anew. -/
theorem Linked.concrete_concat (h : Linked r done state) (hname : name ∉ done.map Prod.fst)
    {concrete : OrderedMap String String}
    (hother : ∀ n, n ≠ name → concrete.get? n = state.2.concrete.get? n)
    (hself : concrete.get? name = target? (done ++ [(name, p)]) p) (n : String) :
    concrete.get? n = (OrderedMap.find? n (done ++ [(name, p)])).bind
      (target? (done ++ [(name, p)])) := by
  rw [OrderedMap.find?_concat]
  by_cases hn : n = name
  · subst hn
    have hnone : OrderedMap.find? n done = none := by
      have hget := (OrderedMap.get?_eq_none_iff ⟨done⟩ n).2 hname
      exact hget
    rw [hself, hnone, if_pos rfl]
    rfl
  · rw [hother n hn, h.concrete, if_neg hn, Option.or_none]
    cases hp : OrderedMap.find? n done with
    | none => rfl
    | some p' => exact (target?_concat (OrderedMap.mem_of_find? hp) _).symm

/-- After one more output those before it own what they did. -/
theorem filter_owns_concat (done : List (String × Pipeline)) (e : String × Pipeline) :
    (done ++ [e]).filter (owns (done ++ [e])) =
      done.filter (owns done) ++ if owns (done ++ [e]) e then [e] else [] := by
  rw [List.filter_append]
  congr 1
  · exact List.filter_congr fun x hx => owns_concat hx e
  · by_cases h : owns (done ++ [e]) e = true <;> simp [h]

/-- An output without a chain is linked to its source and to nothing if it has none. -/
theorem Linked.of_chain?_eq_none (h : Linked r done state) (hname : name ∉ done.map Prod.fst)
    (hchain : p.chain? = none) {concrete : OrderedMap String String}
    (hother : ∀ n, n ≠ name → concrete.get? n = state.2.concrete.get? n)
    (hself : concrete.get? name = p.source.map Source.name) :
    Linked r (done ++ [(name, p)]) (state.1, { state.2 with concrete := concrete }) where
  owners := owners_concat_of_no_chain h.owners hchain
  concrete := by
    refine h.concrete_concat hname hother ?_
    rw [hself, target?_of_no_chain hchain]
  derived := by
    have howns : owns (done ++ [(name, p)]) (name, p) = false := by
      unfold owns
      rw [hchain]
      rfl
    rw [filter_owns_concat, howns]
    simpa using h.derived
  frame := by
    obtain ⟨concrete₀, derived, hframe⟩ := h.frame
    exact ⟨concrete, derived, by rw [hframe]⟩

/-- The first output with its chain owns a derived dataset. -/
theorem Linked.of_new_chain (h : Linked r done state) (hname : name ∉ done.map Prod.fst)
    {chain : String} (hchain : p.chain? = some chain) (hnew : owner? done chain = none) :
    Linked r (done ++ [(name, p)]) (state.1.insert chain name,
      { state.2 with
        concrete := state.2.concrete.insert name name
        derived := state.2.derived.insert name p }) where
  owners := owners_concat_of_new h.owners hchain hnew
  concrete := by
    refine h.concrete_concat hname (fun _ hn => OrderedMap.get?_insert_of_ne _ _ hn) ?_
    rw [OrderedMap.get?_insert_self, target?_of_chain hchain, owner?_concat, hnew, hchain, if_pos rfl]
    rfl
  derived := by
    have howns : owns (done ++ [(name, p)]) (name, p) = true := by
      rw [owns_eq_of_chain hchain, owner?_concat, hnew, if_pos hchain]
      exact beq_self_eq_true _
    have hkey : name ∉ state.2.derived.keys := by
      unfold OrderedMap.keys
      rw [h.derived]
      exact fun hmem => hname ((List.filter_sublist.map Prod.fst).subset hmem)
    rw [filter_owns_concat, howns, if_pos rfl, OrderedMap.entries_insert_of_notMem hkey, h.derived]
  frame := by
    obtain ⟨concrete, derived, hframe⟩ := h.frame
    exact ⟨_, _, by rw [hframe]⟩

/-- A further output with a chain is linked to its owner. -/
theorem Linked.of_owned_chain (h : Linked r done state) (hname : name ∉ done.map Prod.fst)
    {chain owner : String} (hchain : p.chain? = some chain) (howner : owner? done chain = some owner) :
    Linked r (done ++ [(name, p)])
      (state.1, { state.2 with concrete := state.2.concrete.insert name owner }) where
  owners := owners_concat_of_owner h.owners hchain howner
  concrete := by
    refine h.concrete_concat hname (fun _ hn => OrderedMap.get?_insert_of_ne _ _ hn) ?_
    rw [OrderedMap.get?_insert_self, target?_of_chain hchain, owner?_concat, howner]
    rfl
  derived := by
    have hne : owner ≠ name := by
      obtain ⟨q, hq, -⟩ := mem_of_owner? howner
      rintro rfl
      exact hname (List.mem_map_of_mem hq)
    have howns : owns (done ++ [(name, p)]) (name, p) = false := by
      rw [owns_eq_of_chain hchain, owner?_concat, howner]
      simpa using hne
    rw [filter_owns_concat, howns]
    simpa using h.derived
  frame := by
    obtain ⟨concrete, derived, hframe⟩ := h.frame
    exact ⟨_, derived, by rw [hframe]⟩

/-- One more output under a name of its own. -/
theorem Linked.linkOutput (h : Linked r done state) (hname : name ∉ done.map Prod.fst) :
    Linked r (done ++ [(name, p)]) (linkOutput state (name, p)) := by
  cases hchain : p.chain? with
  | none =>
    rw [linkOutput_of_no_chain hchain]
    have hfind : OrderedMap.find? name done = none := by
      have hget := (OrderedMap.get?_eq_none_iff ⟨done⟩ name).2 hname
      exact hget
    cases hsource : p.source with
    | none =>
      refine h.of_chain?_eq_none hname hchain (fun _ _ => rfl) ?_
      rw [hsource]
      show state.2.concrete.get? name = none
      rw [h.concrete, hfind]
      rfl
    | some s =>
      refine h.of_chain?_eq_none hname hchain
        (fun _ hn => OrderedMap.get?_insert_of_ne _ _ hn) ?_
      rw [hsource]
      exact OrderedMap.get?_insert_self _ _ _
  | some chain =>
    cases howner : owner? done chain with
    | none =>
      rw [linkOutput_of_new hchain ((h.owners chain).trans howner)]
      exact h.of_new_chain hname hchain howner
    | some owner =>
      rw [linkOutput_of_owner hchain ((h.owners chain).trans howner)]
      exact h.of_owned_chain hname hchain howner

/-- Some more outputs, each under a name of its own. -/
theorem Linked.foldl (h : Linked r done state) (todo : List (String × Pipeline))
    (hnodup : ((done ++ todo).map Prod.fst).Nodup) :
    Linked r (done ++ todo) (todo.foldl Registry.linkOutput state) := by
  induction todo generalizing done state with
  | nil => rwa [List.append_nil]
  | cons e rest ih =>
    rw [List.append_cons] at hnodup ⊢
    refine ih (h.linkOutput ?_) hnodup
    rw [List.map_append, List.map_append] at hnodup
    have hlast := (List.nodup_append.1 (List.nodup_append.1 hnodup).1).2.2
    exact fun hmem => hlast _ hmem _ (List.mem_singleton.2 rfl) rfl

/-- All outputs of a registry without links. -/
theorem linked_link (hconcrete : r.concrete = .empty) (hderived : r.derived = .empty)
    (hnodup : r.outputs.keys.Nodup) :
    Linked r r.outputs.entries (r.outputs.entries.foldl Registry.linkOutput (.empty, r)) := by
  have hstart : Linked r [] (.empty, r) :=
    ⟨fun _ => rfl, fun n => by rw [hconcrete]; rfl, by rw [hderived]; rfl, _, _, rfl⟩
  exact hstart.foldl _ hnodup

/-- An output is linked to its source, or to the owner of its chain. -/
theorem get?_concrete_link (hconcrete : r.concrete = .empty) (hderived : r.derived = .empty)
    (hnodup : r.outputs.keys.Nodup) (n : String) :
    r.link.concrete.get? n = (r.outputs.get? n).bind (target? r.outputs.entries) :=
  (linked_link hconcrete hderived hnodup).concrete n

/-- The derived datasets are those of the owners. -/
theorem derived_link (hconcrete : r.concrete = .empty) (hderived : r.derived = .empty)
    (hnodup : r.outputs.keys.Nodup) :
    r.link.derived.entries = r.outputs.entries.filter (owns r.outputs.entries) :=
  (linked_link hconcrete hderived hnodup).derived

end Registry

end ChartLowering
