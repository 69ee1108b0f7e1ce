import ChartLowering.Dataset.Registry
import Mathlib.Data.List.Nodup

/-
  The root datasets of a registry.

  A definition is found again by its key, so there is one root dataset for every key, in the order in
  which the keys were first seen. A reference gives its own name to its root dataset; all others are
  numbered without gaps (`Rooted`). Looking for a root dataset
  finds the one that is there, or makes one (`sourceFor_cases`).
-/

namespace ChartLowering

/-- A value that comes again leaves the distinct values as they are; a new one goes to the end. -/
theorem eraseDups_concat {α : Type} [BEq α] [LawfulBEq α] [DecidableEq α] (l : List α) (a : α) :
    (l ++ [a]).eraseDups = if a ∈ l then l.eraseDups else l.eraseDups ++ [a] := by
  rw [List.eraseDups_append]
  by_cases h : a ∈ l <;> simp [List.removeAll, h, List.eraseDups_cons]

namespace Registry

variable {r q : Registry} {d : DataSpec} {s : Source} {seen : List DataSpec}

/-- The name that a new root dataset of a definition gets. -/
def rootName (r : Registry) (d : DataSpec) : String :=
  match d.origin with
  | .name n => n
  | _ => numberedName r.numbered

/-- The fields of a definition's root dataset besides its name. -/
def rootFields (declared : OrderedMap String Json) (d : DataSpec) : List (String × Json) :=
  match d.origin with
  | .name n => ((declared.get? n).map fun rows => ("values", rows)).toList
  | .values rows => [("values", DataSpec.plainRows rows)]
  | .url address => fetchFields address d.format

/-- A new root dataset of a definition. -/
def newRoot (r : Registry) (d : DataSpec) : Source :=
  ⟨r.rootName d, .obj (("name", .str (r.rootName d)) :: rootFields r.declared d)⟩

/-- The registry with a new root dataset of a definition. -/
def addRoot (r : Registry) (d : DataSpec) : Registry :=
  { r with
    sources := r.sources.insert (sourceKey d) (r.newRoot d)
    numbered := if d.name?.isSome then r.numbered else r.numbered + 1 }

theorem namedSource_eq_ok {n : String} (hd : d.origin = .name n) (h : r.namedSource n = .ok s) :
    s = r.newRoot d := by
  unfold namedSource at h
  unfold newRoot rootName rootFields
  simp only [hd]
  split at h
  · rename_i rows hrows
    rw [← Except.ok.inj h, hrows]
    rfl
  · rename_i hnone
    split at h
    · cases h
    · rw [← Except.ok.inj h, hnone]
      rfl

/-- The root dataset of a definition is the one that is there, or else a new one. -/
theorem sourceFor_cases (h : r.sourceFor d = .ok (s, q)) :
    (r.sources.get? (sourceKey d) = some s ∧ q = r) ∨
      (r.sources.get? (sourceKey d) = none ∧ s = r.newRoot d ∧ q = r.addRoot d) := by
  unfold sourceFor at h
  simp only at h
  split at h
  · cases h
  · split at h
    · rename_i s' hs'
      cases h
      exact Or.inl ⟨hs', rfl⟩
    · rename_i hnone
      refine Or.inr ⟨hnone, ?_⟩
      unfold addRoot DataSpec.name?
      split at h
      · rename_i n hn
        cases hsource : r.namedSource n with
        | error e => rw [hsource] at h; cases h
        | ok root =>
          rw [hsource] at h
          cases h
          rw [hn]
          obtain rfl := namedSource_eq_ok hn hsource
          exact ⟨rfl, rfl⟩
      · rename_i rows hrows
        cases h
        unfold newRoot rootName rootFields
        rw [hrows]
        exact ⟨rfl, rfl⟩
      · rename_i address haddress
        cases h
        unfold newRoot rootName rootFields
        rw [haddress]
        exact ⟨rfl, rfl⟩

/-! ## Runs of look-ups -/

/-- The name of a root dataset without a name of its own. -/
def unnamedRoot? : SourceKey × Source → Option String
  | (.named _, _) => none
  | (.inline _, s) => some s.name

/-- What the root datasets are after root datasets were looked for, of these definitions in order. -/
structure Rooted (r : Registry) (seen : List DataSpec) : Prop where
  keys : r.sources.keys = (seen.map sourceKey).eraseDups
  nodup : r.sources.keys.Nodup
  named : ∀ n s, r.sources.get? (.named n) = some s → s.name = n
  numbered : r.sources.entries.filterMap unnamedRoot? = (List.range r.numbered).map numberedName
  described : ∀ k s, r.sources.get? k = some s → ∃ d ∈ seen, sourceKey d = k ∧
    s.dataset = .obj (("name", .str s.name) :: rootFields r.declared d)

theorem rooted_start (declared : OrderedMap String Json) (strict : Bool) :
    (start declared strict).Rooted [] where
  keys := rfl
  nodup := List.nodup_nil
  named := fun n s hs => by cases hs
  numbered := rfl
  described := fun k s hs => by cases hs

/-- Only the root datasets and their numbers count. -/
theorem Rooted.register (h : r.Rooted seen) (name : String) (p : Pipeline) :
    (r.register name p).Rooted seen :=
  ⟨h.keys, h.nodup, h.named, h.numbered, h.described⟩

theorem Rooted.note (h : r.Rooted seen) (names : List String) : (r.note names).Rooted seen :=
  ⟨h.keys, h.nodup, h.named, h.numbered, h.described⟩

theorem unnamedRoot?_newRoot (r : Registry) (d : DataSpec) :
    unnamedRoot? (sourceKey d, r.newRoot d) =
      if d.name?.isSome then none else some (numberedName r.numbered) := by
  unfold sourceKey newRoot rootName DataSpec.name?
  cases d.origin <;> rfl

/-- One more look-up. -/
theorem Rooted.sourceFor (h : r.Rooted seen) (hs : r.sourceFor d = .ok (s, q)) :
    q.Rooted (seen ++ [d]) := by
  rcases sourceFor_cases hs with ⟨hfound, rfl⟩ | ⟨hnone, rfl, rfl⟩
  · have hmem : sourceKey d ∈ seen.map sourceKey := by
      rw [← List.mem_eraseDups, ← h.keys]
      exact OrderedMap.mem_keys_of_get? hfound
    refine ⟨?_, h.nodup, h.named, h.numbered, ?_⟩
    · rw [h.keys, List.map_append, List.map_singleton, eraseDups_concat, if_pos hmem]
    · intro k s hk
      obtain ⟨e, he, hkey, hdataset⟩ := h.described k s hk
      exact ⟨e, List.mem_append_left _ he, hkey, hdataset⟩
  · have hkey : sourceKey d ∉ r.sources.keys := (OrderedMap.get?_eq_none_iff _ _).1 hnone
    have hseen : sourceKey d ∉ seen.map sourceKey := by
      rwa [← List.mem_eraseDups, ← h.keys]
    refine ⟨?keys, OrderedMap.nodup_keys_insert h.nodup _ _, ?named, ?numbered, ?described⟩
    case keys =>
      show (r.sources.insert _ _).keys = _
      rw [OrderedMap.keys_insert, if_neg hkey, h.keys, List.map_append, List.map_singleton,
        eraseDups_concat, if_neg hseen]
    case named =>
      intro n s hs
      change (r.sources.insert _ _).get? _ = _ at hs
      rw [OrderedMap.get?_insert] at hs
      split at hs
      · rename_i hn
        rw [← Option.some.inj hs]
        unfold sourceKey at hn
        unfold newRoot rootName
        cases hd : d.origin with
        | name m => rw [hd] at hn; exact (SourceKey.named.inj hn).symm
        | values rows => rw [hd] at hn; cases hn
        | url address => rw [hd] at hn; cases hn
      · exact h.named n s hs
    case numbered =>
      show (r.sources.insert _ _).entries.filterMap _ = _
      rw [OrderedMap.entries_insert_of_notMem hkey, List.filterMap_append, h.numbered]
      unfold addRoot
      by_cases hname : d.name?.isSome = true
      · simp [unnamedRoot?_newRoot, hname]
      · simp [unnamedRoot?_newRoot, hname, List.range_succ]
    case described =>
      intro k s hs
      change (r.sources.insert _ _).get? _ = _ at hs
      rw [OrderedMap.get?_insert] at hs
      split at hs
      · rename_i hk
        rw [← Option.some.inj hs]
        exact ⟨d, List.mem_append_right _ List.mem_cons_self, hk.symm, rfl⟩
      · obtain ⟨e, he, hkey, hdataset⟩ := h.described k s hs
        exact ⟨e, List.mem_append_left _ he, hkey, hdataset⟩

/-- The root dataset that was looked for is there. -/
theorem get?_sourceFor (hs : r.sourceFor d = .ok (s, q)) :
    q.sources.get? (sourceKey d) = some s := by
  rcases sourceFor_cases hs with ⟨hfound, rfl⟩ | ⟨-, rfl, rfl⟩
  · exact hfound
  · exact OrderedMap.get?_insert_self _ _ _

/-- A root dataset that is there stays. -/
theorem get?_sourceFor_of_some (hs : r.sourceFor d = .ok (s, q)) {k : SourceKey} {s' : Source}
    (hk : r.sources.get? k = some s') : q.sources.get? k = some s' := by
  rcases sourceFor_cases hs with ⟨-, rfl⟩ | ⟨hnone, rfl, rfl⟩
  · exact hk
  · refine (OrderedMap.get?_insert_of_ne _ _ ?_).trans hk
    rintro rfl
    rw [hnone] at hk
    cases hk

end Registry

end ChartLowering
