import ChartLowering.Proofs.Dataset.Fingerprints
import ChartLowering.Proofs.Dataset.Registration
import ChartLowering.Proofs.Text.Qualified

/-
  Outputs told apart by what they make.

  Every transform makes a geometry signal or positions, and these have names of the view that they
  are made for. So two outputs with equal chains would be outputs of one name
  (`Registered.owner?_eq`), as long as no fingerprints collide, and every output with transforms has
  a derived dataset of its own (`Registered.get?_concrete_of_output`, `Registered.derived_entries`).
-/

namespace ChartLowering

theorem UnitSpec.length_geometryRoles_le (u : UnitSpec) : u.geometryRoles.length ≤ 3 := by
  have hpairs : u.coordinatePairs.length ≤ Channel.geoPairs.length := List.length_filterMap_le _ _
  have hshape : (u.shapeField?.map GeometryRole.shape).toList.length ≤ 1 := by
    cases u.shapeField? <;> simp
  have htwo : Channel.geoPairs.length = 2 := rfl
  unfold geometryRoles
  rw [List.length_append, List.length_map]
  omega

theorem UnitSpec.suffix_mem_of_mem_coordinatePairs (u : UnitSpec) {e : String × CoordinatePair}
    (h : e ∈ u.coordinatePairs) : e.1 ∈ ["", "2"] := by
  obtain ⟨⟨suffix, lon, lat⟩, hmem, he⟩ := List.mem_filterMap.1 h
  have hsuffix : suffix ∈ Channel.geoPairs.map Prod.fst := List.mem_map_of_mem hmem
  simp only at he
  split at he
  · rw [← Option.some.inj he]
    exact hsuffix
  · cases he

theorem isPart_geometrySuffix (i : Nat) : Text.IsPart (geometrySuffix i) :=
  Text.isPart_append_toString (by decide +kernel) (by decide) i

/-! ## What transforms make -/

namespace Transform

/-- The names of what a transform makes: a geometry signal, or positions. -/
def products : Transform → List String
  | .geojson _ _ signal => [signal]
  | .geopoint _ _ positions _ => positions

/-- Transforms that are the same make the same. -/
theorem Same.products_eq {t t' : Transform} (h : t.Same t') :
    t.kind = t'.kind ∧ t.products = t'.products := by
  cases h <;> exact ⟨rfl, rfl⟩

end Transform

/-! ## Names of what views make -/

namespace View

theorem mem_extracted {v : View} {n : String} (h : n ∈ v.extracted) :
    v.data ≠ none ∧ ∃ i < 3, v.partName (geometrySuffix i) = n := by
  unfold extracted at h
  split at h
  · rename_i u d k hform hdata hk
    rw [hdata]
    refine ⟨by simp, ?_⟩
    split at h
    · obtain ⟨⟨role, i⟩, hmem, rfl⟩ := List.mem_map.1 h
      have hi := List.snd_lt_of_mem_zipIdx hmem
      have hlength := u.length_geometryRoles_le
      exact ⟨i, by omega, rfl⟩
    · exact absurd h List.not_mem_nil
  · exact absurd h List.not_mem_nil

/-- Views with a geometry signal in common have their main outputs under one name. -/
theorem mainOutput_eq_of_signal_eq {v w : View} {i j : Nat} (hi : i < 3) (hj : j < 3)
    (h : v.partName (geometrySuffix i) = w.partName (geometrySuffix j)) :
    v.mainOutput = w.mainOutput := by
  have hdigit : ∀ n, n < 3 → (geometrySuffix n).toList.length = 9 := by decide +kernel
  exact Text.qualified_eq_of_length_eq (isPart_geometrySuffix i) (isPart_geometrySuffix j)
    ((hdigit i hi).trans (hdigit j hj).symm) h (by decide +kernel)

/-- Views with a position in common have their main outputs under one name. -/
theorem mainOutput_eq_of_position_eq {v w : View} {s s' : String} (hs : s ∈ ["", "2"])
    (hs' : s' ∈ ["", "2"]) (h : v.partName ("x" ++ s) = w.partName ("x" ++ s')) :
    v.mainOutput = w.mainOutput := by
  have hpart : ∀ s ∈ ["", "2"], Text.IsPart ("x" ++ s) := by decide +kernel
  have hsuffix : s = s' := by
    -- the last characters tell the two suffixes apart
    have hlast : ∀ v : View, ∀ s ∈ ["", "2"],
        (v.partName ("x" ++ s)).toList.getLast? = ("x" ++ s).toList.getLast? := by
      intro v s hs
      rw [partName, Text.toList_qualified _ (hpart s hs)]
      exact List.getLast?_append_of_ne_nil _ (by simp)
    have hapart : ∀ s ∈ ["", "2"], ∀ s' ∈ ["", "2"],
        ("x" ++ s).toList.getLast? = ("x" ++ s').toList.getLast? → s = s' := by decide +kernel
    refine hapart s hs s' hs' ?_
    rw [← hlast v s hs, ← hlast w s' hs', h]
  subst hsuffix
  exact Text.qualified_eq_of_length_eq (hpart s hs) (hpart s hs) rfl h (by decide +kernel)

/-- What the transforms of a view make is named after the view. -/
inductive Makes (v : View) : Transform → Prop where
  | signal {i : Nat} (hi : i < 3) (coordinates : Option (List Coordinate))
      (geometry : Option String) :
      Makes v (.geojson coordinates geometry (v.partName (geometrySuffix i)))
  | positions {s : String} (hs : s ∈ ["", "2"]) (projection : String)
      (coordinates : List Coordinate) (view : Option Nat) :
      Makes v (.geopoint projection coordinates [v.partName ("x" ++ s), v.partName ("y" ++ s)] view)

theorem makes_of_mem_outputTransforms {v : View} {index : Nat} {t : Transform}
    (h : t ∈ v.outputTransforms index) : v.Makes t := by
  unfold outputTransforms at h
  split at h
  · rename_i u hform
    obtain ⟨k, -, ⟨role, i, hmem, rfl⟩ | ⟨e, he, rfl⟩⟩ := mem_transforms h
    · have hi := List.snd_lt_of_mem_zipIdx hmem
      have hlength := u.length_geometryRoles_le
      cases role with
      | coordinates pair => exact .signal (by omega) _ _
      | shape field => exact .signal (by omega) _ _
    · exact .positions (u.suffix_mem_of_mem_coordinatePairs he) _ _ _
  · exact absurd h List.not_mem_nil

/-- Views whose transforms make the same have their main outputs under one name. -/
theorem mainOutput_eq_of_makes {v w : View} {t t' : Transform} (h : v.Makes t) (h' : w.Makes t')
    (hkind : t.kind = t'.kind) (hproducts : t.products = t'.products) :
    v.mainOutput = w.mainOutput := by
  cases h with
  | signal hi coordinates geometry =>
    cases h' with
    | signal hj coordinates' geometry' =>
      exact mainOutput_eq_of_signal_eq hi hj (List.cons.inj hproducts).1
    | positions hs projection coordinates' view => simp [Transform.kind] at hkind
  | positions hs projection coordinates view =>
    cases h' with
    | signal hj coordinates' geometry' => simp [Transform.kind] at hkind
    | positions hs' projection' coordinates' view' =>
      exact mainOutput_eq_of_position_eq hs hs' (List.cons.inj hproducts).1

end View

/-! ## Chains -/

namespace Pipeline

/-- The first transforms of pipelines with one chain make the same. -/
theorem exists_products_of_chain?_eq {p q : Pipeline} {values : List Json}
    (hfree : Json.CollisionFree values) (hp : p.hashed ⊆ values) (hq : q.hashed ⊆ values)
    {chain : String} (hpc : p.chain? = some chain) (hqc : q.chain? = some chain) :
    ∃ t ∈ p.transforms, ∃ t' ∈ q.transforms, t.kind = t'.kind ∧ t.products = t'.products := by
  have hsame := (chain?_eq_iff_same hfree hq hp hqc).1 hpc
  obtain ⟨s, t, ts, rfl, -⟩ := chain?_eq_some hpc
  obtain ⟨t', ts', hfirst, -, hts'⟩ := List.forall₂_cons_left_iff.1 hsame.transforms
  exact ⟨t, List.mem_cons_self, t', hts' ▸ List.mem_cons_self, hfirst.products_eq⟩

end Pipeline

namespace Registry

variable {r₀ r : Registry} {views : List View}

/-- The values that are fingerprinted for the datasets of some views: the definitions of their data
that are no references, and what tells their outputs apart. -/
def hashed (r : Registry) (views : List View) : List Json :=
  ((views.filterMap View.outputData?).filter fun d => d.name?.isNone).map DataSpec.toJson ++
    r.outputs.values.flatMap Pipeline.hashed

theorem hashed_subset {n : String} {p : Pipeline} (hp : (n, p) ∈ r.outputs.entries) :
    p.hashed ⊆ r.hashed views := by
  intro j hj
  exact List.mem_append_right _ (List.mem_flatMap.2 ⟨p, List.mem_map_of_mem hp, hj⟩)

/-- Every output is the owner of its chain. -/
theorem Registered.owner?_eq (h : Registered r₀ r views)
    (hfree : Json.CollisionFree (r.hashed views)) {n : String} {p : Pipeline}
    (hp : r.outputs.get? n = some p) {chain : String} (hchain : p.chain? = some chain) :
    owner? r.outputs.entries chain = some n := by
  have hmem := OrderedMap.mem_entries_of_get? hp
  obtain ⟨m, hm⟩ := exists_owner? hmem hchain
  obtain ⟨q, hq, hqchain⟩ := mem_of_owner? hm
  obtain ⟨t, ht, t', ht', hkind, hproducts⟩ := Pipeline.exists_products_of_chain?_eq hfree
    (hashed_subset hmem) (hashed_subset hq) hchain hqchain
  obtain ⟨i, v, d, s, hv, -, -, rfl⟩ := h.last n p hp
  obtain ⟨j, w, e, s', hw, -, -, rfl⟩ := h.last m q (OrderedMap.get?_of_mem h.nodup hq)
  have hname := View.mainOutput_eq_of_makes (View.makes_of_mem_outputTransforms ht)
    (View.makes_of_mem_outputTransforms ht') hkind hproducts
  rw [hm, ← hv.name, ← hw.name, hname]

/-- An output without transforms is linked to its root dataset, any other one to itself. -/
theorem Registered.get?_concrete_of_output (h : Registered r₀ r views)
    (hfree : Json.CollisionFree (r.hashed views)) {n : String} {s : Source} {ts : List Transform}
    (hp : r.outputs.get? n = some ⟨some s, ts⟩) :
    r.link.concrete.get? n = some (if ts = [] then s.name else n) := by
  rw [get?_concrete_link h.concrete h.derived h.nodup, hp,
    Option.bind_some]
  cases ts with
  | nil => rfl
  | cons t ts =>
    have hchain : Pipeline.chain? ⟨some s, t :: ts⟩ = some (chainFingerprint s (t :: ts)) := rfl
    rw [target?_of_chain hchain, h.owner?_eq hfree hp hchain]
    rfl

/-- The outputs with transforms have derived datasets, and no others. -/
theorem Registered.derived_entries (h : Registered r₀ r views)
    (hfree : Json.CollisionFree (r.hashed views)) :
    r.link.derived.entries = r.outputs.entries.filter fun e => !e.2.transforms.isEmpty := by
  rw [derived_link h.concrete h.derived h.nodup]
  refine List.filter_congr ?_
  rintro ⟨n, p⟩ hmem
  have hp := OrderedMap.get?_of_mem h.nodup hmem
  obtain ⟨i, v, d, s, -, -, -, rfl⟩ := h.last n p hp
  cases hts : v.outputTransforms i with
  | nil => rfl
  | cons t ts =>
    rw [hts] at hp
    have hchain : Pipeline.chain? ⟨some s, t :: ts⟩ = some (chainFingerprint s (t :: ts)) := rfl
    rw [owns_eq_of_chain hchain, h.owner?_eq hfree hp hchain]
    exact beq_self_eq_true _

end Registry

namespace TopLevelSpec

/-- Every output with transforms is linked to the dataset that is derived for itself, so outputs of
different names never share one; an output without transforms is linked to a root. -/
theorem derived_apart {settings : Settings} {t : TopLevelSpec} {r : Registry}
    (hr : t.registered settings = .ok r)
    (hfree : Json.CollisionFree (r.hashed (t.resolved settings).labels)) :
    (∀ n p, r.outputs.get? n = some p → p.transforms ≠ [] →
      r.link.concreteName n = n ∧ (n, p) ∈ r.link.derived.entries) ∧
    (∀ m n p q, r.outputs.get? m = some p → r.outputs.get? n = some q → p.transforms ≠ [] →
      q.transforms ≠ [] → m ≠ n → r.link.concreteName m ≠ r.link.concreteName n) ∧
    ∀ n p, r.outputs.get? n = some p → p.transforms = [] →
      ∃ s ∈ r.sources.values, p.source = some s ∧ r.link.concreteName n = s.name := by
  have h := registered_eq_ok hr
  have hlinked : ∀ n p, r.outputs.get? n = some p → ∃ s ∈ r.sources.values, p.source = some s ∧
      r.link.concreteName n = if p.transforms = [] then s.name else n := by
    intro n p hp
    obtain ⟨i, v, d, s, -, -, hs, rfl⟩ := h.last n p hp
    refine ⟨s, List.mem_map_of_mem (OrderedMap.mem_entries_of_get? hs), rfl, ?_⟩
    rw [Registry.concreteName, h.get?_concrete_of_output hfree hp]
    rfl
  have hself : ∀ n p, r.outputs.get? n = some p → p.transforms ≠ [] →
      r.link.concreteName n = n := by
    intro n p hp hne
    obtain ⟨s, -, -, hname⟩ := hlinked n p hp
    rw [hname, if_neg hne]
  refine ⟨fun n p hp hne => ⟨hself n p hp hne, ?_⟩, ?_, ?_⟩
  · rw [h.derived_entries hfree]
    exact List.mem_filter.2 ⟨OrderedMap.mem_entries_of_get? hp, by simpa using hne⟩
  · intro m n p q hp hq hpne hqne hmn
    rwa [hself m p hp hpne, hself n q hq hqne]
  · intro n p hp hnil
    obtain ⟨s, hs, hsource, hname⟩ := hlinked n p hp
    exact ⟨s, hs, hsource, by rw [hname, if_pos hnil]⟩

/-- Two maps side by side of the same regions. -/
def regionMaps : TopLevelSpec :=
  let shape : ChannelDef := ⟨.field "outline", some .geojson, none, .unset, .unset, .empty⟩
  let map : ViewSpec := .unit ⟨none, some ⟨.name "regions", none⟩, none, none⟩
    ⟨⟨"geoshape", .empty⟩, ⟨[(.shape, .one shape)]⟩, none⟩
  ⟨.concat ⟨none, none, none, none⟩ [map, map] .horizontal .silent, .empty, .plain⟩

/-- Each of the two maps has a dataset of its own. -/
theorem derived_apart_regionMaps : ∃ r, regionMaps.registered .standard = .ok r ∧
    r.link.concreteName "concat_0_main" ≠ r.link.concreteName "concat_1_main" := by
  have hchecked : (regionMaps.registered .standard).toOption.any (fun r =>
      decide ((r.hashed (regionMaps.resolved .standard).labels).map Json.fingerprint).Nodup &&
        ["concat_0_main", "concat_1_main"].all fun n =>
          (r.outputs.get? n).any fun p => !p.transforms.isEmpty) = true := by
    decide +kernel
  cases hr : regionMaps.registered .standard with
  | error cause => rw [hr] at hchecked; cases hchecked
  | ok r =>
    rw [hr] at hchecked
    obtain ⟨hdistinct, houtputs⟩ := Bool.and_eq_true_iff.1 hchecked
    have hfree := Json.collisionFree_of_nodup (of_decide_eq_true hdistinct)
    have houtput : ∀ n ∈ ["concat_0_main", "concat_1_main"],
        ∃ p, r.outputs.get? n = some p ∧ p.transforms ≠ [] := by
      intro n hn
      obtain ⟨p, hp, hne⟩ := (Option.any_eq_true _ _).1 (List.all_eq_true.1 houtputs n hn)
      exact ⟨p, hp, by simpa using hne⟩
    obtain ⟨p, hp, hpne⟩ := houtput "concat_0_main" (by simp)
    obtain ⟨q, hq, hqne⟩ := houtput "concat_1_main" (by simp)
    exact ⟨r, rfl, (derived_apart hr hfree).2.1 _ _ p q hp hq hpne hqne (by decide)⟩

end TopLevelSpec

end ChartLowering
