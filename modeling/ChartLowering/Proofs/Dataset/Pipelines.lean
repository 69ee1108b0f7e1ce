import ChartLowering.Proofs.Dataset.Linking
import ChartLowering.Proofs.Dataset.Registration

/-
  Which projections the datasets of a document go through.

  A pipeline names a projection by the logical name that it has at a view, together with the index of
  the view (`Pipeline.ProjectsBy`). Every registered pipeline is that of some view, and linking only
  picks from them (`Registered.projectsBy`). So every coordinate transform that is written out names
  the projection of a view, as seen from that view (`exists_geopoint_of_emit`).
-/

namespace ChartLowering

theorem Json.field?_cons_self (k : String) (j : Json) (rest : List (String × Json)) :
    (Json.obj ((k, j) :: rest)).field? k = some j := by
  simp [Json.field?, Json.fields?, OrderedMap.get?, OrderedMap.find?]

/-- What is written for a transform: an extraction, with a test of its geometry field before it, or a
projection. -/
theorem Transform.mem_emit {t : Transform} {assigned : Nat → String → String} {j : Json}
    (h : j ∈ t.emit assigned) :
    (∃ coordinates f signal, t = .geojson coordinates (some f) signal ∧
      j.field? "type" = some (.str "filter") ∧ j.field? "expr" = some (.str (validityTest f))) ∨
    (∃ coordinates geometry signal, t = .geojson coordinates geometry signal ∧
      j.field? "type" = some (.str "geojson")) ∨
    ∃ projection coordinates positions view,
      t = .geopoint projection coordinates positions view ∧
        j.field? "type" = some (.str "geopoint") ∧
        j.field? "projection" = some (.str (match view with
          | some i => assigned i projection
          | none => projection)) := by
  cases t with
  | geojson coordinates geometry signal =>
    unfold emit at h
    simp only [List.mem_append, Option.mem_toList, List.mem_singleton] at h
    rcases h with h | rfl
    · obtain ⟨f, hf, rfl⟩ := Option.map_eq_some_iff.1 h
      obtain ⟨hgeometry, -⟩ := Option.filter_eq_some_iff.1 hf
      refine .inl ⟨coordinates, f, signal, by rw [hgeometry], Json.field?_cons_self _ _ _, ?_⟩
      simp [Json.field?, Json.fields?, OrderedMap.get?, OrderedMap.find?]
    · refine .inr (.inl ⟨coordinates, geometry, signal, rfl, ?_⟩)
      rw [List.append_assoc, List.append_assoc, List.singleton_append, Json.field?_cons_self]
  | geopoint projection coordinates positions view =>
    obtain rfl := List.mem_singleton.1 h
    exact .inr (.inr ⟨projection, coordinates, positions, view, rfl, rfl, rfl⟩)

/-- Whether the coordinates of a pipeline are projected only by views and names that are related. -/
def Pipeline.ProjectsBy (P : Nat → String → Prop) (p : Pipeline) : Prop :=
  ∀ projection coordinates positions view,
    Transform.geopoint projection coordinates positions view ∈ p.transforms →
      ∃ i, view = some i ∧ P i projection

namespace Registry

variable {P : Nat → String → Prop} {r₀ r : Registry} {views : List View}

/-- The same of all pipelines of a registry. -/
structure ProjectsBy (P : Nat → String → Prop) (r : Registry) : Prop where
  outputs : ∀ p ∈ r.outputs.values, p.ProjectsBy P
  derived : ∀ p ∈ r.derived.values, p.ProjectsBy P

/-- The pipeline of a unit goes through the projection of the unit. -/
theorem projectsBy_transforms {v : View} {u : UnitSpec} {index : Nat} {source : Option Source}
    (hP : ∀ k, v.component? .projection none = some k → P index k.name) :
    Pipeline.ProjectsBy P ⟨source, v.transforms u index⟩ := by
  intro projection coordinates positions view h
  obtain ⟨k, hk, ⟨role, i, -, he⟩ | ⟨e, -, he⟩⟩ := View.mem_transforms h
  · cases role <;> cases he
  · cases he
    exact ⟨index, rfl, hP k hk⟩

/-- The pipelines of views go through the projections of these views. -/
theorem Registered.projectsBy (h : Registered r₀ r views)
    (hP : ∀ i v, views[i]? = some v →
      ∀ k, v.component? .projection none = some k → P i k.name) : r.link.ProjectsBy P := by
  have houtputs : ∀ e ∈ r.outputs.entries, e.2.ProjectsBy P := by
    rintro ⟨n, p⟩ he
    obtain ⟨i, v, d, s, hlast, -, -, rfl⟩ := h.last n p (OrderedMap.get?_of_mem h.nodup he)
    unfold View.outputTransforms
    split
    · exact projectsBy_transforms (hP i v hlast.here)
    · exact fun _ _ _ _ hmem => absurd hmem List.not_mem_nil
  constructor
  case outputs =>
    obtain ⟨_, _, hlink⟩ := link_frame _
    have hkept : r.link.outputs = r.outputs := by rw [hlink]
    rw [hkept]
    exact List.forall_mem_map.2 houtputs
  case derived =>
    intro p hp
    obtain ⟨e, he, rfl⟩ := List.mem_map.1 hp
    rw [derived_link h.concrete h.derived h.nodup] at he
    exact houtputs e (List.mem_filter.1 he).1

/-- A coordinate transform that is written out is that of a derived dataset's pipeline. -/
theorem exists_geopoint_of_emit {assigned : Nat → String → String} {name source : String}
    {transforms : List Json} (h : .derived name source transforms ∈ r.emit assigned) {j : Json}
    (hj : j ∈ transforms) (htype : j.field? "type" = some (.str "geopoint")) :
    ∃ p ∈ r.derived.values, ∃ projection coordinates positions view,
      Transform.geopoint projection coordinates positions view ∈ p.transforms ∧
        j.field? "projection" = some (.str (match view with
          | some i => assigned i projection
          | none => projection)) := by
  unfold emit at h
  rcases List.mem_append.1 h with h | h
  · obtain ⟨s, -, h⟩ := List.mem_map.1 h
    cases h
  · obtain ⟨⟨n, p⟩, hp, h⟩ := List.mem_filterMap.1 h
    obtain ⟨s, -, h⟩ := Option.map_eq_some_iff.1 h
    cases h
    obtain ⟨tr, htr, hj⟩ := List.mem_flatMap.1 hj
    refine ⟨p, List.mem_map_of_mem (List.mem_filter.1 hp).1, ?_⟩
    rcases Transform.mem_emit hj with ⟨coordinates, f, signal, -, hfilter, -⟩ |
      ⟨coordinates, geometry, signal, -, hgeojson⟩ |
      ⟨projection, coordinates, positions, view, rfl, -, hprojection⟩
    · exact absurd (hfilter.symm.trans htype) (by decide)
    · exact absurd (hgeojson.symm.trans htype) (by decide)
    · exact ⟨projection, coordinates, positions, view, htr, hprojection⟩

end Registry

namespace TopLevelSpec

/-- Every pipeline of a specification goes through the projection of the view that it names. -/
theorem projectsBy_registered {settings : Settings} {t : TopLevelSpec} {r : Registry}
    (h : t.registered settings = .ok r) :
    r.link.ProjectsBy fun i n => ∃ l, ((t.resolved settings).walk [])[i]? = some l ∧
      ∃ k, l.tree.label.component? .projection none = some k ∧ k.name = n := by
  refine (registered_eq_ok h).projectsBy ?_
  intro i v hv k hk
  rw [Tree.labels, List.getElem?_map, Option.map_eq_some_iff] at hv
  obtain ⟨l, hl, rfl⟩ := hv
  exact ⟨l, hl, k, hk, rfl⟩

end TopLevelSpec

end ChartLowering
