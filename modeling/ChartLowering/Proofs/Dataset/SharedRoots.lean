import ChartLowering.Proofs.Dataset.Linking
import ChartLowering.Proofs.Dataset.OwnData

/-
  Which definitions share a root dataset.

  A look-up reads and changes the registry step by step and may fail on the way (`rootFor`). Its
  result is that of `sourceFor`, and when it fails nothing has changed (`after_rootFor`). Over any
  calls of a compile, with look-ups among them that succeed or fail (`Searched`), definitions share
  a root dataset exactly if they have one name, or have no name and are equal but for the order of
  keys, and the root datasets without a name of their own are numbered in the order in which their
  definitions were first seen (`Searched.roots_spec`). This needs that no fingerprints collide.
  Names and fingerprints never meet, also not as the texts that a table may be keyed by
  (`sourceKey_eq_of_text_eq`): a fingerprint has no colon.
-/

namespace ChartLowering

theorem Sha256.colon_notMem_digest (bytes : List UInt8) : ':' ∉ (digest bytes).toList := by
  have hdigit : ∀ k < 16, Nat.digitChar k ≠ ':' := by decide
  unfold digest hexDigits
  rw [String.toList_ofList]
  intro h
  obtain ⟨w, -, h⟩ := List.mem_flatMap.1 h
  obtain ⟨i, -, h⟩ := List.mem_map.1 h
  exact hdigit _ (Nat.mod_lt _ (by decide)) h

/-- A key as a text. -/
def SourceKey.text : SourceKey → String
  | .named n => "name:" ++ n
  | .inline f => f

namespace Registry

variable {r q : Registry} {d e : DataSpec} {s : Source} {seen : List DataSpec}

theorem named_text_ne_fingerprint (n : String) (j : Json) :
    SourceKey.text (.named n) ≠ j.fingerprint := by
  intro h
  have hcolon : ':' ∈ (SourceKey.text (.named n)).toList := by simp [SourceKey.text]
  rw [h] at hcolon
  exact Sha256.colon_notMem_digest _ hcolon

/-- Keys of definitions are told apart by their texts. -/
theorem sourceKey_eq_of_text_eq (h : (sourceKey d).text = (sourceKey e).text) :
    sourceKey d = sourceKey e := by
  cases hd : d.name? with
  | some n =>
    rw [sourceKey_eq_named.2 hd] at h ⊢
    cases he : e.name? with
    | some m =>
      rw [sourceKey_eq_named.2 he] at h ⊢
      rw [(String.append_right_inj _).1 h]
    | none =>
      rw [sourceKey_of_unnamed he] at h
      exact absurd h (named_text_ne_fingerprint _ _)
  | none =>
    rw [sourceKey_of_unnamed hd] at h ⊢
    cases he : e.name? with
    | some m =>
      rw [sourceKey_eq_named.2 he] at h
      exact absurd h.symm (named_text_ne_fingerprint _ _)
    | none =>
      rw [sourceKey_of_unnamed he] at h ⊢
      exact congrArg SourceKey.inline h

/-! ## Look-ups step by step -/

/-- A step that reads and changes a registry, and may fail. -/
abbrev Step (α : Type) : Type := ExceptT CompileError (StateM Registry) α

/-- The result of a step and the registry after it. -/
def Step.after {α : Type} (m : Step α) (r : Registry) : Except CompileError α × Registry :=
  m.run.run r

/-- The root dataset of a name. -/
def namedRoot (n : String) : Step Source := .mk ((·.namedSource n) <$> get)

/-- A new root dataset without a name of its own, which takes the next number. -/
def numberedRoot (fields : List (String × Json)) : Step Source := do
  let name := numberedName (← get).numbered
  modify fun r => { r with numbered := r.numbered + 1 }
  return ⟨name, .obj (("name", .str name) :: fields)⟩

/-- A new root dataset of a definition. -/
def makeRoot (d : DataSpec) : Step Source :=
  match d.origin with
  | .name n => namedRoot n
  | .values rows => numberedRoot [("values", DataSpec.plainRows rows)]
  | .url address => numberedRoot (fetchFields address d.format)

/-- Adds a root dataset. -/
def addSource (key : SourceKey) (s : Source) : Step Unit :=
  modify fun r => { r with sources := r.sources.insert key s }

/-- The root dataset of a definition, which is made when the definition is first seen: every read
and write of the registry in its order. -/
def rootFor (d : DataSpec) : Step Source := do
  if d.isTooDeep then
    throw .tooDeep
  match (← get).sources.get? (sourceKey d) with
  | some s => return s
  | none =>
    let s ← makeRoot d
    addSource (sourceKey d) s
    return s

theorem Step.after_bind {α β : Type} (m : Step α) (f : α → Step β) (r : Registry) :
    Step.after (m >>= f) r = match m.after r with
      | (.ok a, q) => (f a).after q
      | (.error e, q) => (.error e, q) := by
  unfold Step.after
  rw [ExceptT.run_bind, StateT.run_bind]
  show (match m.run.run r with | (a, q) => _) = _
  cases m.run.run r with
  | mk a q => cases a <;> rfl

theorem after_makeRoot (d : DataSpec) (r : Registry) : (makeRoot d).after r =
    match d.origin with
    | .name n => (r.namedSource n, r)
    | _ => (.ok (r.newRoot d), { r with numbered := r.numbered + 1 }) := by
  unfold makeRoot newRoot rootName rootFields
  cases d.origin <;> rfl

/-- A look-up does what `sourceFor` does, and one that fails leaves the registry as it was. -/
theorem after_rootFor (d : DataSpec) (r : Registry) : (rootFor d).after r =
    match r.sourceFor d with
    | .ok (s, q) => (.ok s, q)
    | .error e => (.error e, r) := by
  unfold rootFor sourceFor
  by_cases hdeep : d.isTooDeep = true
  · simp only [hdeep, if_true]
    rfl
  · simp only [hdeep, if_false, Bool.false_eq_true]
    rw [Step.after_bind]
    show Step.after (match r.sources.get? (sourceKey d) with | some s => _ | none => _) r = _
    cases r.sources.get? (sourceKey d) with
    | some s => rfl
    | none =>
      show Step.after (makeRoot d >>= _) r = _
      rw [Step.after_bind, after_makeRoot]
      unfold newRoot rootName rootFields
      cases d.origin with
      | name n =>
        simp only
        cases r.namedSource n with
        | error e => rfl
        | ok s => rfl
      | values rows | url address => rfl

/-- A look-up of a definition without a name fails only if the definition is nested too deeply. -/
theorem exists_root_of_unnamed (hdeep : d.isTooDeep = false) (hd : d.name? = none) (r : Registry) :
    ∃ s, ((rootFor d).after r).1 = .ok s := by
  rw [after_rootFor]
  unfold Registry.sourceFor
  unfold DataSpec.name? at hd
  simp only [hdeep, Bool.false_eq_true, if_false]
  cases r.sources.get? (sourceKey d) with
  | some s => exact ⟨s, rfl⟩
  | none =>
    cases horigin : d.origin with
    | name n => rw [horigin] at hd; cases hd
    | values rows | url address => exact ⟨_, rfl⟩

/-! ## Definitions in the order in which they were first seen -/

/-- The definitions without a name among some definitions, each once. -/
def definitions (seen : List DataSpec) : List Json :=
  ((seen.filter fun d => d.name?.isNone).map fun d => d.toJson.sorted).eraseDups

theorem mem_definitions {j : Json} :
    j ∈ definitions seen ↔ ∃ d ∈ seen, d.name? = none ∧ d.toJson.sorted = j := by
  unfold definitions
  rw [List.mem_eraseDups, List.mem_map]
  simp only [List.mem_filter, Option.isNone_iff_eq_none, and_assoc]

theorem definitions_concat_of_named {n : String} (hd : d.name? = some n) :
    definitions (seen ++ [d]) = definitions seen := by
  unfold definitions
  rw [List.filter_append, List.filter_cons_of_neg (by simp [hd]), List.filter_nil,
    List.append_nil]

theorem definitions_concat_of_unnamed (hd : d.name? = none) :
    definitions (seen ++ [d]) =
      if d.toJson.sorted ∈ definitions seen then definitions seen
      else definitions seen ++ [d.toJson.sorted] := by
  unfold definitions
  rw [List.filter_append, List.filter_cons_of_pos (by simp [hd]), List.filter_nil,
    List.map_append, List.map_singleton, eraseDups_concat]
  simp only [List.mem_eraseDups]

/-- How the root datasets without a name of their own are numbered. -/
structure Counted (seen : List DataSpec) (r : Registry) : Prop where
  numbered : r.numbered = (definitions seen).length
  place : ∀ d ∈ seen, d.name? = none → ∀ s, r.sources.get? (sourceKey d) = some s →
    ∃ i, (definitions seen)[i]? = some d.toJson.sorted ∧ s.name = numberedName i

/-- One more look-up of a definition with a name. -/
theorem Counted.sourceFor_named (h : Counted seen r) {n : String} (hd : d.name? = some n)
    (hs : r.sourceFor d = .ok (s, q)) : Counted (seen ++ [d]) q := by
  have hkept : q.numbered = r.numbered ∧ ∀ k, k ≠ sourceKey d →
      q.sources.get? k = r.sources.get? k := by
    rcases sourceFor_cases hs with ⟨-, rfl⟩ | ⟨-, -, rfl⟩
    · exact ⟨rfl, fun _ _ => rfl⟩
    · exact ⟨by simp [addRoot, hd], fun k hk => OrderedMap.get?_insert_of_ne _ _ hk⟩
  constructor
  case numbered => rw [definitions_concat_of_named hd, hkept.1, h.numbered]
  case place =>
    intro e he hename s' hs'
    have hne : sourceKey e ≠ sourceKey d := by
      rw [sourceKey_of_unnamed hename, sourceKey_eq_named.2 hd]
      simp
    have hseen : e ∈ seen := by
      rcases List.mem_append.1 he with he | he
      · exact he
      · exact absurd (congrArg sourceKey (List.mem_singleton.1 he)) hne
    rw [hkept.2 _ hne] at hs'
    rw [definitions_concat_of_named hd]
    exact h.place e hseen hename s' hs'

/-- One more look-up of a definition without a name. -/
theorem Counted.sourceFor_unnamed (h : Counted seen r) (hrooted : r.Rooted seen)
    {values : List Json} (hfree : Json.CollisionFree values)
    (hvalues : ∀ e ∈ seen ++ [d], e.name? = none → e.toJson ∈ values) (hd : d.name? = none)
    (hs : r.sourceFor d = .ok (s, q)) : Counted (seen ++ [d]) q := by
  have hlast : d ∈ seen ++ [d] := List.mem_append_right _ List.mem_cons_self
  have hkey : ∀ e ∈ seen ++ [d], sourceKey e = sourceKey d ↔ e.SameRoot d :=
    fun e he => sourceKey_eq_iff hfree (hvalues e he) (hvalues d hlast)
  have hkeys : sourceKey d ∈ r.sources.keys ↔ d.toJson.sorted ∈ definitions seen := by
    rw [hrooted.keys, List.mem_eraseDups, List.mem_map, mem_definitions]
    refine exists_congr fun e => and_congr_right fun he => ?_
    rw [hkey e (List.mem_append_left _ he)]
    exact ⟨fun hsame => hsame.of_unnamed hd, fun ⟨hename, hsorted⟩ => Or.inr ⟨hename, hd, hsorted⟩⟩
  rcases sourceFor_cases hs with ⟨hfound, rfl⟩ | ⟨hnone, rfl, rfl⟩
  · have hmem := hkeys.1 (OrderedMap.mem_keys_of_get? hfound)
    have hdefinitions : definitions (seen ++ [d]) = definitions seen := by
      rw [definitions_concat_of_unnamed hd, if_pos hmem]
    obtain ⟨e, he, hename, hsorted⟩ := mem_definitions.1 hmem
    have hsame := (hkey e (List.mem_append_left _ he)).2 (Or.inr ⟨hename, hd, hsorted⟩)
    refine ⟨by rw [hdefinitions, h.numbered], ?_⟩
    intro e' he' hename' s' hs'
    rw [hdefinitions]
    rcases List.mem_append.1 he' with he' | he'
    · exact h.place e' he' hename' s' hs'
    · -- the definition itself is numbered like the one that it is equal to
      obtain rfl := List.mem_singleton.1 he'
      rw [← hsame] at hs'
      rw [← hsorted]
      exact h.place e he hename s' hs'
  · have hnew : d.toJson.sorted ∉ definitions seen := by
      rw [← hkeys]
      exact (OrderedMap.get?_eq_none_iff _ _).1 hnone
    have hdefinitions : definitions (seen ++ [d]) = definitions seen ++ [d.toJson.sorted] := by
      rw [definitions_concat_of_unnamed hd, if_neg hnew]
    constructor
    case numbered =>
      rw [hdefinitions, List.length_append, List.length_singleton, ← h.numbered]
      simp [addRoot, hd]
    case place =>
      intro e he hename s' hs'
      change (r.sources.insert _ _).get? _ = _ at hs'
      rw [OrderedMap.get?_insert] at hs'
      rw [hdefinitions]
      split at hs'
      · rename_i hsame
        obtain ⟨-, hsorted⟩ := ((hkey e he).1 hsame).of_unnamed hd
        refine ⟨(definitions seen).length, ?_, ?_⟩
        · rw [hsorted, List.getElem?_concat_length]
        · rw [← Option.some.inj hs', ← h.numbered]
          unfold newRoot rootName
          unfold DataSpec.name? at hd
          cases horigin : d.origin with
          | name n => rw [horigin] at hd; cases hd
          | values rows | url address => rfl
      · rename_i hne
        have hseen : e ∈ seen := by
          rcases List.mem_append.1 he with he | he
          · exact he
          · exact absurd (congrArg sourceKey (List.mem_singleton.1 he)) hne
        obtain ⟨i, hi, hname⟩ := h.place e hseen hename s' hs'
        exact ⟨i, by rw [List.getElem?_append_left (List.getElem?_eq_some_iff.1 hi).1, hi], hname⟩

/-! ## Any calls -/

/-- What a registry can be after some look-ups of root datasets, which are listed with their
answers, and any other calls between them. -/
inductive Searched : List (DataSpec × Except CompileError Source) → Registry → Prop where
  | start (declared : OrderedMap String Json) (strict : Bool) : Searched [] (start declared strict)
  | search {calls : List (DataSpec × Except CompileError Source)} {r : Registry} (d : DataSpec) :
      Searched calls r →
      Searched (calls ++ [(d, ((rootFor d).after r).1)]) ((rootFor d).after r).2
  | register {calls : List (DataSpec × Except CompileError Source)} {r : Registry} (name : String)
      (p : Pipeline) : Searched calls r → Searched calls (r.register name p)
  | note {calls : List (DataSpec × Except CompileError Source)} {r : Registry}
      (names : List String) : Searched calls r → Searched calls (r.note names)
  | link {calls : List (DataSpec × Except CompileError Source)} {r : Registry} :
      Searched calls r → Searched calls r.link

/-- The definitions whose root datasets were found or made. -/
def found (calls : List (DataSpec × Except CompileError Source)) : List DataSpec :=
  calls.filterMap fun c => c.2.toOption.map fun _ => c.1

/-- The values that are fingerprinted when root datasets are looked for; a definition that is nested
too deeply is refused before. -/
def hashedRoots (calls : List (DataSpec × Except CompileError Source)) : List Json :=
  ((calls.map Prod.fst).filter fun d => d.name?.isNone && !d.isTooDeep).map DataSpec.toJson

/-- What the calls so far have made of the root datasets. -/
structure Answered (calls : List (DataSpec × Except CompileError Source)) (r : Registry) :
    Prop where
  rooted : r.Rooted (found calls)
  kept : ∀ d s, (d, .ok s) ∈ calls → r.sources.get? (sourceKey d) = some s
  hashed : ∀ d ∈ found calls, d.name? = none → d.toJson ∈ hashedRoots calls
  counted : ∀ values, Json.CollisionFree values →
    (∀ d ∈ found calls, d.name? = none → d.toJson ∈ values) → Counted (found calls) r

variable {calls : List (DataSpec × Except CompileError Source)}

theorem hashedRoots_subset (calls rest : List (DataSpec × Except CompileError Source)) :
    hashedRoots calls ⊆ hashedRoots (calls ++ rest) := by
  unfold hashedRoots
  rw [List.map_append, List.filter_append, List.map_append]
  exact List.subset_append_left _ _

theorem isTooDeep_of_sourceFor (hs : r.sourceFor d = .ok (s, q)) : d.isTooDeep = false := by
  cases hdeep : d.isTooDeep with
  | false => rfl
  | true =>
    unfold Registry.sourceFor at hs
    simp only [hdeep, if_true] at hs
    cases hs

theorem mem_found (h : (d, .ok s) ∈ calls) : d ∈ found calls :=
  List.mem_filterMap.2 ⟨(d, .ok s), h, rfl⟩

theorem found_concat_ok (calls : List (DataSpec × Except CompileError Source)) (d : DataSpec)
    (s : Source) : found (calls ++ [(d, .ok s)]) = found calls ++ [d] := by
  unfold found
  rw [List.filterMap_append]
  rfl

theorem found_concat_error (calls : List (DataSpec × Except CompileError Source)) (d : DataSpec)
    (cause : CompileError) : found (calls ++ [(d, .error cause)]) = found calls := by
  unfold found
  rw [List.filterMap_append]
  exact List.append_nil _

theorem found_concat_of_unnamed (calls : List (DataSpec × Except CompileError Source))
    (hdeep : d.isTooDeep = false) (hd : d.name? = none) (r : Registry) :
    found (calls ++ [(d, ((rootFor d).after r).1)]) = found calls ++ [d] := by
  obtain ⟨s, hs⟩ := exists_root_of_unnamed hdeep hd r
  rw [hs, found_concat_ok]

/-- Only the root datasets, their numbers and the declared rows count. -/
theorem Answered.congr (h : Answered calls r) (hsources : q.sources = r.sources)
    (hnumbered : q.numbered = r.numbered) (hdeclared : q.declared = r.declared) :
    Answered calls q := by
  obtain ⟨⟨hkeys, hnodup, hnamed, hnumbers, hdescribed⟩, hkept, hhashed, hcounted⟩ := h
  rw [← hsources] at hkeys hnodup hnumbers
  simp only [← hsources] at hnamed hdescribed hkept
  rw [← hnumbered] at hnumbers
  rw [← hdeclared] at hdescribed
  refine ⟨⟨hkeys, hnodup, hnamed, hnumbers, hdescribed⟩, hkept, hhashed, ?_⟩
  intro values hfree hvalues
  obtain ⟨hcount, hplace⟩ := hcounted values hfree hvalues
  exact ⟨hnumbered.trans hcount, fun d hd hname s hs => hplace d hd hname s (hsources ▸ hs)⟩

/-- A look-up that succeeds. -/
theorem Answered.sourceFor (h : Answered calls r) (hs : r.sourceFor d = .ok (s, q)) :
    Answered (calls ++ [(d, .ok s)]) q := by
  refine ⟨?rooted, ?kept, ?hashed, ?counted⟩
  case rooted =>
    rw [found_concat_ok]
    exact h.rooted.sourceFor hs
  case kept =>
    intro e s' he
    rcases List.mem_append.1 he with he | he
    · exact get?_sourceFor_of_some hs (h.kept e s' he)
    · cases List.mem_singleton.1 he
      exact get?_sourceFor hs
  case hashed =>
    rw [found_concat_ok]
    intro e he hename
    rcases List.mem_append.1 he with he | he
    · exact hashedRoots_subset _ _ (h.hashed e he hename)
    · obtain rfl := List.mem_singleton.1 he
      refine List.mem_map_of_mem (List.mem_filter.2 ⟨by simp, ?_⟩)
      rw [hename, isTooDeep_of_sourceFor hs]
      rfl
  case counted =>
    rw [found_concat_ok]
    intro values hfree hvalues
    have hbefore := h.counted values hfree fun e he => hvalues e (List.mem_append_left _ he)
    cases hd : d.name? with
    | some n => exact hbefore.sourceFor_named hd hs
    | none => exact hbefore.sourceFor_unnamed h.rooted hfree hvalues hd hs

/-- A look-up that fails. -/
theorem Answered.refused (h : Answered calls r) (d : DataSpec) (cause : CompileError) :
    Answered (calls ++ [(d, .error cause)]) r := by
  refine ⟨?rooted, ?kept, ?hashed, ?counted⟩
  case kept =>
    intro e s he
    rcases List.mem_append.1 he with he | he
    · exact h.kept e s he
    · cases List.mem_singleton.1 he
  all_goals rw [found_concat_error]
  case rooted => exact h.rooted
  case hashed => exact fun e he hename => hashedRoots_subset _ _ (h.hashed e he hename)
  case counted => exact h.counted

theorem Searched.answered (h : Searched calls r) : Answered calls r := by
  induction h with
  | start declared strict =>
    exact ⟨rooted_start declared strict, fun _ _ => nofun, fun _ => nofun,
      fun _ _ _ => ⟨rfl, fun _ => nofun⟩⟩
  | @search calls r d _ ih =>
    rw [after_rootFor]
    cases hs : r.sourceFor d with
    | ok result => exact ih.sourceFor hs
    | error cause => exact ih.refused d cause
  | register name p _ ih => exact ih.congr rfl rfl rfl
  | note names _ ih => exact ih.congr rfl rfl rfl
  | link _ ih =>
    obtain ⟨concrete, derived, hlink⟩ := link_frame _
    rw [hlink]
    exact ih.congr rfl rfl rfl

/-- Over any calls, two look-ups return the same root dataset, given by its place, exactly if the
definitions stand for the same one. The root datasets without a name of their own are numbered
without gaps in the order in which their definitions were first seen. A look-up that fails leaves
the registry as it was. Keys are told apart by their texts. -/
theorem Searched.roots_spec (h : Searched calls r)
    (hfree : Json.CollisionFree (hashedRoots calls)) :
    (∀ d s e s', (d, .ok s) ∈ calls → (e, .ok s') ∈ calls → ∃ i j : Nat,
      r.sources.entries[i]? = some (sourceKey d, s) ∧
        r.sources.entries[j]? = some (sourceKey e, s') ∧ (i = j ↔ d.SameRoot e)) ∧
    r.sources.entries.filterMap unnamedRoot? =
      (List.range (definitions (found calls)).length).map numberedName ∧
    (∀ d s, (d, .ok s) ∈ calls → d.name? = none → ∃ i : Nat,
      (definitions (found calls))[i]? = some d.toJson.sorted ∧ s.name = numberedName i) ∧
    (∀ d cause q, (rootFor d).after r = (.error cause, q) → q = r) ∧
    ∀ d e, (sourceKey d).text = (sourceKey e).text → sourceKey d = sourceKey e := by
  have hanswered := h.answered
  have hcounted := hanswered.counted _ hfree hanswered.hashed
  refine ⟨?shared, ?numbers, ?order, ?failed, fun d e => sourceKey_eq_of_text_eq⟩
  case shared =>
    intro d s e s' hd he
    have hkey := sourceKey_eq_iff hfree (hanswered.hashed d (mem_found hd))
      (hanswered.hashed e (mem_found he))
    obtain ⟨i, hi⟩ :=
      List.mem_iff_getElem?.1 (OrderedMap.mem_entries_of_get? (hanswered.kept d s hd))
    obtain ⟨j, hj⟩ :=
      List.mem_iff_getElem?.1 (OrderedMap.mem_entries_of_get? (hanswered.kept e s' he))
    refine ⟨i, j, hi, hj, ?_⟩
    rw [← hkey]
    constructor
    · rintro rfl
      exact congrArg Prod.fst (Option.some.inj (hi.symm.trans hj))
    · intro hsame
      have hikey : r.sources.keys[i]? = some (sourceKey d) := by
        rw [OrderedMap.keys, List.getElem?_map, hi]
        rfl
      have hjkey : r.sources.keys[j]? = some (sourceKey d) := by
        rw [OrderedMap.keys, List.getElem?_map, hj, hsame]
        rfl
      exact (List.getElem?_inj (List.getElem?_eq_some_iff.1 hikey).1 hanswered.rooted.nodup).1
        (hikey.trans hjkey.symm)
  case numbers => rw [hanswered.rooted.numbered, hcounted.numbered]
  case order =>
    intro d s hd hname
    exact hcounted.place d (mem_found hd) hname s (hanswered.kept d s hd)
  case failed =>
    intro d cause q hq
    rw [after_rootFor] at hq
    cases hs : r.sourceFor d with
    | ok result =>
      rw [hs] at hq
      cases hq
    | error e =>
      rw [hs] at hq
      cases hq
      rfl

/-- One row with two cells. -/
def rowOf (first second : String × Json) : DataSpec := ⟨.values [⟨[first, second]⟩], none⟩

/-- The same row with its cells in two orders has one root dataset, and what comes from an address
the next one. An undeclared dataset before them leaves no trace. -/
theorem roots_spec_rowInTwoOrders :
    let refused := (rootFor ⟨.name "planes", none⟩).after (start .empty true)
    let first := (rootFor (rowOf ("a", .int 1) ("b", .int 2))).after refused.2
    let second := (rootFor (rowOf ("b", .int 2) ("a", .int 1))).after first.2
    let fetched := (rootFor ⟨.url "cars.csv", none⟩).after second.2
    refused.2 = start .empty true ∧
      fetched.2.sources.entries.filterMap unnamedRoot? = ["source_0", "source_1"] := by
  have hsearched := ((((Searched.start .empty true).search ⟨.name "planes", none⟩).search
    (rowOf ("a", .int 1) ("b", .int 2))).search (rowOf ("b", .int 2) ("a", .int 1))).search
      ⟨.url "cars.csv", none⟩
  have hfree : Json.CollisionFree (([rowOf ("a", .int 1) ("b", .int 2),
      rowOf ("b", .int 2) ("a", .int 1), ⟨.url "cars.csv", none⟩] : List DataSpec).map
        DataSpec.toJson) := by
    decide +kernel
  obtain ⟨-, hnumbers, -⟩ := hsearched.roots_spec hfree
  refine ⟨rfl, hnumbers.trans ?_⟩
  rw [found_concat_of_unnamed _ rfl rfl, found_concat_of_unnamed _ rfl rfl,
    found_concat_of_unnamed _ rfl rfl]
  decide +kernel

end Registry

end ChartLowering
