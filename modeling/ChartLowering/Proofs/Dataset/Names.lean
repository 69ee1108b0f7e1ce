import ChartLowering.Proofs.Dataset.Linking
import ChartLowering.Proofs.Dataset.Registration
import ChartLowering.Proofs.Text.Qualified
import Mathlib.Data.List.Pairwise

/-
  Names of datasets.

  Three kinds of names meet in one list: references keep the names that they were given by hand, other
  roots are numbered, and derived datasets have the names of views' outputs. Numbers never meet
  outputs, as their last characters differ. So the only names that can meet are those of references
  with the others: the names of the roots are distinct if and only if no reference has a number
  that is in use (`Rooted.nodup_names_iff`).
-/

namespace ChartLowering

open Text

/-! ## Generated names -/

theorem toString_toList_ne_nil (n : Nat) : (toString n).toList ≠ [] := by
  rw [Nat.toString_eq_repr, Nat.toList_repr]
  exact Nat.toDigits_ne_nil

namespace Registry

theorem numberedName_injective {i j : Nat} (h : numberedName i = numberedName j) : i = j := by
  have htext : (numberedName i).toList ++ '_' :: [] = (numberedName j).toList ++ '_' :: [] := by
    rw [h]
  exact numbered_eq_of_append_eq htext

/-- A number ends in a digit, and an output in a letter. -/
theorem numberedName_ne_mainOutput (i : Nat) (v : View) : numberedName i ≠ v.mainOutput := by
  intro h
  have hlast := congrArg (fun n => n.toList.getLast?) h
  have houtput : v.mainOutput.toList.getLast? = some 'n' := by
    unfold View.mainOutput View.partName
    rw [toList_qualified _ (by decide +kernel), List.getLast?_append_of_ne_nil _ (by decide)]
    rfl
  have hnumber : (numberedName i).toList.getLast? = (toString i).toList.getLast? := by
    unfold numberedName
    rw [String.toList_append]
    exact List.getLast?_append_of_ne_nil _ (toString_toList_ne_nil i)
  simp only [hnumber, houtput] at hlast
  have hmem := List.mem_of_getLast? hlast
  rw [Nat.toString_eq_repr, Nat.toList_repr] at hmem
  exact absurd (Nat.isDigit_of_mem_toDigits (by decide) (by decide) hmem) (by decide)

variable {r : Registry} {seen : List DataSpec}

/-! ## Names of roots -/

/-- The number of a root that is no reference. -/
theorem Rooted.number_of_inline (h : r.Rooted seen) {f : String} {s : Source}
    (hs : (.inline f, s) ∈ r.sources.entries) : ∃ i < r.numbered, s.name = numberedName i := by
  have hmem : s.name ∈ r.sources.entries.filterMap unnamedRoot? :=
    List.mem_filterMap.2 ⟨_, hs, rfl⟩
  rw [h.numbered] at hmem
  obtain ⟨i, hi, hname⟩ := List.mem_map.1 hmem
  exact ⟨i, List.mem_range.1 hi, hname.symm⟩

/-- Every number in use is that of a root which is no reference. -/
theorem Rooted.exists_inline (h : r.Rooted seen) {i : Nat} (hi : i < r.numbered) :
    ∃ f s, (.inline f, s) ∈ r.sources.entries ∧ s.name = numberedName i := by
  have hmem : numberedName i ∈ (List.range r.numbered).map numberedName :=
    List.mem_map_of_mem (List.mem_range.2 hi)
  rw [← h.numbered] at hmem
  obtain ⟨⟨key, s⟩, hs, hname⟩ := List.mem_filterMap.1 hmem
  cases key with
  | named n => cases hname
  | inline f => exact ⟨f, s, hs, Option.some.inj hname⟩

theorem Rooted.name_of_named (h : r.Rooted seen) {n : String} {s : Source}
    (hs : (.named n, s) ∈ r.sources.entries) : s.name = n :=
  h.named n s (OrderedMap.get?_of_mem h.nodup hs)

/-- Roots with one name are one root, unless a reference has a number. -/
theorem Rooted.eq_of_name_eq (h : r.Rooted seen) {e e' : SourceKey × Source}
    (he : e ∈ r.sources.entries) (he' : e' ∈ r.sources.entries) (hname : e.2.name = e'.2.name)
    (hapart : .named e.2.name ∈ r.sources.keys → ∀ i < r.numbered, e.2.name ≠ numberedName i) :
    e = e' := by
  obtain ⟨key, s⟩ := e
  obtain ⟨key', s'⟩ := e'
  have hkeys (hkey : key = key') : (key, s) = (key', s') :=
    List.inj_on_of_nodup_map h.nodup he he' hkey
  cases key with
  | named n =>
    cases key' with
    | named m =>
      rw [h.name_of_named he, h.name_of_named he'] at hname
      exact hkeys (congrArg _ hname)
    | inline f =>
      obtain ⟨i, hi, hnumber⟩ := h.number_of_inline he'
      refine absurd (hname.trans hnumber) (hapart ?_ i hi)
      rw [h.name_of_named he]
      exact List.mem_map_of_mem he
  | inline f =>
    cases key' with
    | named m =>
      obtain ⟨i, hi, hnumber⟩ := h.number_of_inline he
      refine absurd hnumber (hapart ?_ i hi)
      rw [hname, h.name_of_named he']
      exact List.mem_map_of_mem he'
    | inline g =>
      have hpairwise : (r.sources.entries.filterMap unnamedRoot?).Nodup := by
        rw [h.numbered]
        exact List.nodup_range.map fun i j => numberedName_injective
      have hdistinct := List.pairwise_filterMap.1 hpairwise
      by_contra hne
      have hsymm : Std.Symm fun a b : SourceKey × Source => ∀ x, unnamedRoot? a = some x →
          ∀ y, unnamedRoot? b = some y → x ≠ y :=
        ⟨fun a b hab x hx y hy => Ne.symm (hab y hy x hx)⟩
      exact hdistinct.forall he he' hne s.name rfl s.name (congrArg some hname.symm) rfl

/-- The roots with names to keep have distinct names if and only if no reference to keep has a
number that is in use. -/
theorem Rooted.nodup_names_iff (h : r.Rooted seen) (keep : String → Bool) :
    ((r.sources.values.filter fun s => keep s.name).map Source.name).Nodup ↔
      ∀ n, .named n ∈ r.sources.keys → keep n = true → ∀ i < r.numbered, n ≠ numberedName i := by
  have hentries : (r.sources.values.filter fun s => keep s.name).map Source.name =
      (r.sources.entries.filter fun e => keep e.2.name).map fun e => e.2.name := by
    unfold OrderedMap.values
    rw [List.filter_map, List.map_map]
    rfl
  have hnodup : (r.sources.entries.filter fun e => keep e.2.name).Nodup :=
    (List.Nodup.of_map Prod.fst h.nodup).filter _
  rw [hentries]
  constructor
  · rintro hnames n hn hkeep i hi rfl
    obtain ⟨⟨key, s⟩, hs, rfl⟩ := List.mem_map.1 hn
    obtain ⟨f, s', hs', hname⟩ := h.exists_inline hi
    have hkept : (.named (numberedName i), s) ∈ r.sources.entries.filter fun e => keep e.2.name :=
      List.mem_filter.2 ⟨hs, by rw [h.name_of_named hs, hkeep]⟩
    have hkept' : (.inline f, s') ∈ r.sources.entries.filter fun e => keep e.2.name :=
      List.mem_filter.2 ⟨hs', by rw [hname, hkeep]⟩
    have heq := List.inj_on_of_nodup_map hnames hkept hkept'
      ((h.name_of_named hs).trans hname.symm)
    cases heq
  · intro hapart
    refine List.Nodup.map_on ?_ hnodup
    intro e he e' he' hname
    obtain ⟨he, hkeep⟩ := List.mem_filter.1 he
    obtain ⟨he', hkeep'⟩ := List.mem_filter.1 he'
    exact h.eq_of_name_eq he he' hname fun hreference => hapart _ hreference hkeep

/-! ## Names of references and outputs -/

variable {r₀ : Registry} {views : List View}

theorem sourceKey_eq_named {d : DataSpec} {n : String} :
    sourceKey d = .named n ↔ d.name? = some n := by
  unfold sourceKey DataSpec.name?
  cases d.origin <;> simp

theorem Registered.named_mem_keys (h : Registered r₀ r views) {n : String} :
    .named n ∈ r.sources.keys ↔ ∃ v ∈ views, ∃ d, v.outputData? = some d ∧ d.name? = some n := by
  rw [h.rooted.keys, List.mem_eraseDups]
  constructor
  · intro hn
    obtain ⟨d, hd, hkey⟩ := List.mem_map.1 hn
    obtain ⟨v, hv, hd⟩ := List.mem_filterMap.1 hd
    exact ⟨v, hv, d, hd, sourceKey_eq_named.1 hkey⟩
  · rintro ⟨v, hv, d, hd, hname⟩
    rw [← sourceKey_eq_named.2 hname]
    exact List.mem_map_of_mem (List.mem_filterMap.2 ⟨v, hv, hd⟩)

theorem Registered.mem_outputs_keys (h : Registered r₀ r views) {n : String} :
    n ∈ r.outputs.keys ↔ ∃ v ∈ views, v.hasOutput = true ∧ v.mainOutput = n := by
  rw [h.keys, List.mem_eraseDups, List.mem_map]
  simp only [List.mem_filter, and_assoc]

/-- A root with the name of an output is a reference. -/
theorem Registered.named_of_name_eq (h : Registered r₀ r views) {s : Source}
    (hs : s ∈ r.sources.values) {v : View} (hname : s.name = v.mainOutput) :
    .named s.name ∈ r.sources.keys := by
  obtain ⟨⟨key, s⟩, he, rfl⟩ := List.mem_map.1 hs
  cases key with
  | named n =>
    rw [h.rooted.name_of_named he]
    exact List.mem_map_of_mem he
  | inline f =>
    obtain ⟨i, -, hnumber⟩ := h.rooted.number_of_inline he
    exact absurd (hnumber.symm.trans hname) (numberedName_ne_mainOutput i v)

/-- Linked outputs are backed, and nothing else is. -/
theorem Registered.backs_link_iff (h : Registered r₀ r views) {n : String} :
    r.link.backs n = true ↔ n ∈ r.outputs.keys := by
  unfold backs OrderedMap.contains
  rw [get?_concrete_link h.concrete h.derived h.nodup]
  constructor
  · intro hsome
    obtain ⟨m, hm⟩ := Option.isSome_iff_exists.1 hsome
    obtain ⟨p, hp, -⟩ := Option.bind_eq_some_iff.1 hm
    exact OrderedMap.mem_keys_of_get? hp
  · intro hn
    obtain ⟨⟨n, p⟩, hp, rfl⟩ := List.mem_map.1 hn
    have hget := OrderedMap.get?_of_mem h.nodup hp
    rw [hget, Option.bind_some]
    cases hchain : p.chain? with
    | none =>
      obtain ⟨i, v, d, s, -, -, -, rfl⟩ := h.last n p hget
      rw [target?_of_no_chain hchain]
      rfl
    | some chain =>
      obtain ⟨owner, howner⟩ := exists_owner? hp hchain
      rw [target?_of_chain hchain, howner]
      rfl

/-- The derived datasets are some of the outputs. -/
theorem Registered.derived_sublist (h : Registered r₀ r views) :
    r.link.derived.keys.Sublist r.outputs.keys := by
  unfold OrderedMap.keys
  rw [derived_link h.concrete h.derived h.nodup]
  exact List.filter_sublist.map Prod.fst

/-- A derived dataset is that of a unit, the last view under its name, and is linked to itself. -/
theorem Registered.exists_unit_of_derived (h : Registered r₀ r views) {n : String} {p : Pipeline}
    (hp : (n, p) ∈ r.link.derived.entries) :
    r.link.concrete.get? n = some n ∧ ∃ i v u d s, IsLast views n i v ∧ v.form = .unit u ∧
      v.data = some d ∧ r.sources.get? (sourceKey d) = some s ∧ p = ⟨some s, v.transforms u i⟩ := by
  rw [derived_link h.concrete h.derived h.nodup] at hp
  obtain ⟨hp, howns⟩ := List.mem_filter.1 hp
  have hget := OrderedMap.get?_of_mem h.nodup hp
  obtain ⟨chain, hchain, howner⟩ := (Option.any_eq_true _ _).1 howns
  have howner : owner? r.outputs.entries chain = some n := by simpa using howner
  constructor
  · rw [get?_concrete_link h.concrete h.derived h.nodup, hget, Option.bind_some,
      target?_of_chain hchain, howner]
  · obtain ⟨i, v, d, s, hlast, hd, hs, rfl⟩ := h.last n p hget
    cases hform : v.form with
    | unit u =>
      have htransforms : v.outputTransforms i = v.transforms u i := by
        rw [View.outputTransforms, hform]
      exact ⟨i, v, u, d, s, hlast, hform, View.data_of_outputData? hd, hs, by rw [htransforms]⟩
    | layer _ | facet _ _ | concat _ =>
      -- only units have transforms
      unfold View.outputTransforms at hchain
      rw [hform] at hchain
      cases hchain

/-- The names of roots to keep and of derived datasets are distinct if and only if no reference to
keep has a number that is in use or the name of a derived dataset. -/
theorem Registered.nodup_names_iff (h : Registered r₀ r views) (keep : String → Bool) :
    ((r.sources.values.filter fun s => keep s.name).map Source.name ++ r.link.derived.keys).Nodup ↔
      ∀ n, .named n ∈ r.sources.keys → keep n = true →
        (∀ i < r.numbered, n ≠ numberedName i) ∧ n ∉ r.link.derived.keys := by
  rw [List.nodup_append, h.rooted.nodup_names_iff]
  constructor
  · rintro ⟨hroots, -, hdisjoint⟩ n hn hkept
    refine ⟨hroots n hn hkept, fun hderived => ?_⟩
    obtain ⟨⟨key, s⟩, he, rfl⟩ := List.mem_map.1 hn
    have hroot : n ∈ (r.sources.values.filter fun s => keep s.name).map Source.name := by
      have hname := h.rooted.name_of_named he
      refine List.mem_map.2 ⟨s, List.mem_filter.2 ⟨List.mem_map_of_mem he, ?_⟩, hname⟩
      rw [hname, hkept]
    exact hdisjoint n hroot n hderived rfl
  · intro hapart
    refine ⟨fun n hn hkept => (hapart n hn hkept).1, h.nodup.sublist h.derived_sublist, ?_⟩
    rintro n hroot m hm rfl
    obtain ⟨s, hs, rfl⟩ := List.mem_map.1 hroot
    obtain ⟨hs, hkept⟩ := List.mem_filter.1 hs
    obtain ⟨v, -, -, hmain⟩ := h.mem_outputs_keys.1 (h.derived_sublist.subset hm)
    have hreference := h.named_of_name_eq hs hmain.symm
    exact (hapart s.name hreference hkept).2 hm

/-- The datasets that there are, by their names: roots as they are, then derived ones. -/
def datasets (r : Registry) : List (String × Pipeline) :=
  (r.sources.values.map fun s => (s.name, ⟨some s, []⟩)) ++ r.derived.entries

/-- Whether no view refers to data by a name that a compile may make up: a number, or the name of
an output. -/
def ReferencesApart (views : List View) : Prop :=
  ∀ v ∈ views, ∀ d n, v.data = some d → d.name? = some n →
    (∀ i, n ≠ numberedName i) ∧ n ∉ views.map View.mainOutput

/-- Datasets have distinct names where no reference has a name that may be made up. -/
theorem Registered.nodup_datasets (h : Registered r₀ r views) (hapart : ReferencesApart views) :
    (r.link.datasets.map Prod.fst).Nodup := by
  have hsources : r.link.sources = r.sources := by
    obtain ⟨_, _, hlink⟩ := link_frame _
    rw [hlink]
  have hnames := (h.nodup_names_iff fun _ => true).2 ?_
  · rw [List.filter_true] at hnames
    unfold datasets
    rw [List.map_append, List.map_map, hsources]
    exact hnames
  · intro n hn _
    obtain ⟨v, hv, d, hd, hname⟩ := h.named_mem_keys.1 hn
    obtain ⟨hnumber, houtput⟩ := hapart v hv d n (View.data_of_outputData? hd) hname
    refine ⟨fun i _ => hnumber i, fun hderived => houtput ?_⟩
    obtain ⟨w, hw, -, hmain⟩ := h.mem_outputs_keys.1 (h.derived_sublist.subset hderived)
    exact List.mem_map.2 ⟨w, hw, hmain⟩

end Registry

end ChartLowering
