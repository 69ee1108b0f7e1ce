import ChartLowering.Proofs.Output.Consulted
import ChartLowering.Proofs.Similar.Entries
import ChartLowering.Proofs.Similar.Marks

/-
  Documents of alike specifications.

  Components with one sketch are completed alike in views with one sketch: with the same error, or
  with properties that are alike (`View.entry_alike`). With the datasets in lockstep this makes the
  documents of alike specifications alike (`compile_alike`): the same signals and marks, datasets that
  correspond, and components that are alike one by one.
-/

namespace ChartLowering

variable {p : Place}

/-- Lists with one image have items with one image, place by place. -/
theorem forall₂_of_map_eq_map {α β γ : Type} {f : α → γ} {g : β → γ} {l : List α} {m : List β}
    (h : l.map f = m.map g) : List.Forall₂ (fun a b => f a = g b) l m := by
  rw [← List.forall₂_eq_eq_eq, List.forall₂_map_left_iff, List.forall₂_map_right_iff] at h
  exact h

/-- Items with one image, place by place, make lists with one image. -/
theorem map_eq_map_of_forall₂ {α β γ : Type} {f : α → γ} {g : β → γ} {l : List α} {m : List β}
    (h : List.Forall₂ (fun a b => f a = g b) l m) : l.map f = m.map g := by
  rwa [← List.forall₂_eq_eq_eq, List.forall₂_map_left_iff, List.forall₂_map_right_iff]

theorem forall₂_and {α β : Type} {R S : α → β → Prop} {l : List α} {m : List β}
    (h : List.Forall₂ R l m) (hS : List.Forall₂ S l m) :
    List.Forall₂ (fun a b => R a b ∧ S a b) l m := by
  induction h with
  | nil => exact .nil
  | cons hab _ ih =>
    cases hS with
    | cons hab' hrest => exact .cons ⟨hab, hab'⟩ (ih hrest)

/-! ## Properties of components -/

namespace Component

variable {k j : Component}

/-- The look-ups in two components with one sketch. -/
theorem get?_alike (hp : p.IsUniform) (h : k.sketch p = j.sketch p) (q : String) :
    (k.get? q).map (Json.arranged p) = (j.get? q).map (Json.arranged p) := by
  obtain ⟨hname, hexplicit, himplicit, -⟩ := Component.mk.inj h
  have himplicit : k.implicit = j.implicit := himplicit
  unfold get? layers Layered.get?
  simp only
  rw [Option.map_or, Option.map_or, ← Fields.get?_arranged hp, hexplicit, Fields.get?_arranged hp,
    himplicit, name_eq h]

theorem getD_alike (hp : p.IsUniform) (h : k.sketch p = j.sketch p) (q : String) :
    ((k.get? q).getD .null).arranged p = ((j.get? q).getD .null).arranged p := by
  rcases cases_of_map_eq_map (get?_alike hp h q) with ⟨ha, hb⟩ | ⟨a, b, ha, hb, hab⟩
  · rw [ha, hb]
  · rw [ha, hb]
    exact hab

theorem combine_alike (hp : p.IsUniform) (h : k.sketch p = j.sketch p) :
    k.combine.arranged p = j.combine.arranged p := by
  obtain ⟨-, hexplicit, himplicit, -⟩ := Component.mk.inj h
  have himplicit : k.implicit = j.implicit := himplicit
  refine Fields.arranged_overlay hp ?_ hexplicit
  rw [layers, layers, himplicit, name_eq h]

theorem properties_alike (hp : p.IsUniform) (h : k.sketch p = j.sketch p) :
    k.properties.arranged p = j.properties.arranged p :=
  Fields.arranged_filterKeys (combine_alike hp h) _

end Component

/-- Two fields are alike if their values are. -/
theorem Fields.arranged_pair (hp : p.IsUniform) (k l : String) {a a' b b' : Json}
    (ha : a.arranged p = a'.arranged p) (hb : b.arranged p = b'.arranged p) :
    Fields.arranged p ⟨[(k, a), (l, b)]⟩ = Fields.arranged p ⟨[(k, a'), (l, b')]⟩ := by
  simp only [Fields.arranged, Json.arrangedFields, hp k, hp l, ha, hb]

/-- Values that are alike are the same, or made of parts that are alike. -/
theorem Json.arranged_cases {a b : Json} (h : a.arranged p = b.arranged p) :
    a = b ∨ (∃ x y, a = .arr x ∧ b = .arr y) ∨ (∃ x y, a = .obj x ∧ b = .obj y) ∨
      ∃ x y, a = .table x ∧ b = .table y := by
  cases a <;> cases b <;>
    first
    | exact .inr (.inl ⟨_, _, rfl, rfl⟩)
    | exact .inr (.inr (.inl ⟨_, _, rfl, rfl⟩))
    | exact .inr (.inr (.inr ⟨_, _, rfl, rfl⟩))
    | exact .inl h
    | cases h

/-! ## Completing components -/

namespace View

variable {v w : View} {above above' : List View} {r r' : Registry} {k j : Component}

section Entries

variable (hp : p.IsUniform) (h : v.sketch p = w.sketch p)
  (habove : above.map (sketch p) = above'.map (sketch p)) (hk : k.sketch p = j.sketch p)

include h habove

theorem lookup_alike (kind : NameKind) (name : String) :
    v.lookup above kind name = w.lookup above' kind name := by
  rw [← v.lookup_sketch above, h, habove, lookup_sketch]

include hp hk

theorem guideScale_alike : v.guideScale above k = w.guideScale above' j := by
  have hscale := Component.getD_alike hp hk "scale"
  unfold guideScale
  generalize (k.get? "scale").getD .null = a, (j.get? "scale").getD .null = b at hscale
  rcases Json.arranged_cases hscale with rfl | ⟨x, y, rfl, rfl⟩ | ⟨x, y, rfl, rfl⟩ | ⟨x, y, rfl, rfl⟩
  · simp only [lookup_alike h habove]
  · rfl
  · rfl
  · rfl

theorem axisFields_alike : SameOutcome (fun a b => a.arranged p = b.arranged p)
    (v.axisFields above k) (w.axisFields above' j) := by
  have hexplicit : k.explicit.arranged p = j.explicit.arranged p := (Component.mk.inj hk).2.1
  have horient := Component.getD_alike hp hk "orient"
  refine (SameOutcome.of_eq (guideScale_alike hp h habove hk)).map ?_
  rintro scale _ rfl
  exact Fields.arranged_overlay hp (Fields.arranged_pair hp _ _ rfl horient) hexplicit

theorem legendFields_alike (c : Option Channel) : SameOutcome (fun a b => a.arranged p = b.arranged p)
    (v.legendFields above c k) (w.legendFields above' c j) := by
  have hexplicit : k.explicit.arranged p = j.explicit.arranged p := (Component.mk.inj hk).2.1
  refine (SameOutcome.of_eq (guideScale_alike hp h habove hk)).map ?_
  rintro scale _ rfl
  exact Fields.arranged_overlay hp rfl hexplicit

theorem projectionFields_alike (hr : r.outline = r'.outline) :
    SameOutcome (fun a b => a.arranged p = b.arranged p) (projectionFields r v above k)
      (projectionFields r' w above' j) := by
  have hproperties := Component.properties_alike hp hk
  have hsize : ∀ d, v.sizeSignal above d = w.sizeSignal above' d := sizeSignal_eq_of_sketch_eq h habove
  have hdata : k.data = j.data := (Component.mk.inj hk).2.2.2.2.2.1
  have harea : v.fitArea above k = w.fitArea above' j := by
    unfold fitArea
    rw [show k.size = j.size from (Component.mk.inj hk).2.2.2.2.1, hsize, hsize]
  have hfit : r.fitExpressions = r'.fitExpressions :=
    (congrArg (fun q : Registry => q.fitExpressions) hr :)
  unfold projectionFields
  rw [hdata, hsize, hsize, hfit, harea, Component.name_eq hk, name_eq h]
  cases j.data with
  | none => exact .ok (Fields.arranged_overlay hp rfl hproperties)
  | some sources =>
    simp only
    split
    · exact .error _
    · refine (SameOutcome.of_eq rfl).map ?_
      rintro fit _ rfl
      exact Fields.arranged_overlay hp rfl hproperties

/-- Components with one sketch are completed alike. -/
theorem entry_alike (hr : r.outline = r'.outline) (s : Slot) :
    SameOutcome (fun a b => a.arranged p = b.arranged p) (v.entry r above s k)
      (w.entry r' above' s j) := by
  obtain ⟨f, c⟩ := s
  cases f with
  | projection => exact projectionFields_alike hp h habove hk hr
  | scale => exact .ok (Component.combine_alike hp hk)
  | axis => exact axisFields_alike hp h habove hk
  | legend => exact legendFields_alike hp h habove hk c

omit hk in
theorem liveEntries_alike (hr : r.outline = r'.outline) (f : Family) :
    List.Forall₂ (SameOutcome fun a b => a.arranged p = b.arranged p) (v.liveEntries r above f)
      (w.liveEntries r' above' f) := by
  have hlive : List.Forall₂ (fun e e' : Option Channel × Component =>
      (e.1, e.2.sketch p) = (e'.1, e'.2.sketch p)) (v.liveComponents f) (w.liveComponents f) := by
    apply forall₂_of_map_eq_map
    rw [← liveComponents_sketch, h, liveComponents_sketch]
  unfold liveEntries
  rw [List.forall₂_map_left_iff, List.forall₂_map_right_iff]
  refine hlive.imp fun e e' he => ?_
  obtain ⟨hchannel, hcomponent⟩ := Prod.mk.inj he
  rw [hchannel]
  exact entry_alike hp h habove hcomponent hr _

end Entries

theorem fitConsulted_sketch (v : View) (r : Registry) :
    (v.sketch p).fitConsulted r.outline = v.fitConsulted r := by
  unfold fitConsulted
  rw [liveComponents_sketch, List.flatMap_map]
  rfl

end View

/-! ## Documents -/

/-- Two documents with the same signals and marks, datasets that correspond, and components that are
alike one by one. -/
structure Document.Alike (p : Place) (J : Json → Json → Prop) (d d' : Document) : Prop where
  schema : d.schema = d'.schema
  signals : d.signals = d'.signals
  data : List.Forall₂ (DatasetDef.Alike J) d.data d'.data
  entries : ∀ f, List.Forall₂ (fun a b => a.arranged p = b.arranged p) (d.entries f) (d'.entries f)
  marks : d.marks = d'.marks

namespace ViewTree

open View

variable {Q : SourceKey → SourceKey → Prop} {J : Json → Json → Prop} {r r' : Registry}
  {t u : ViewTree} {config config' : Config} {settings : Settings}

/-- Trees with one sketch over registries that are alike make alike documents. -/
theorem assemble_alike (hp : p.IsUniform) (hconfig : config.sketch p = config'.sketch p)
    (h : t.map (sketch p) = u.map (sketch p)) (hr : Registry.Alike Q J r r') :
    SameOutcome (fun x y => x.1.Alike p J y.1) (t.assemble config settings r)
      (u.assemble config' settings r') := by
  have hwalks : List.Forall₂ (fun l m : Located View =>
      (⟨l.tree.map (sketch p), l.above.map (sketch p)⟩ : Located View) =
        ⟨m.tree.map (sketch p), m.above.map (sketch p)⟩) (t.walk []) (u.walk []) := by
    apply forall₂_of_map_eq_map
    rw [← Tree.walk_map_nil, h, Tree.walk_map_nil]
  have hentries : List.Forall₂ (fun l m => ∀ f, List.Forall₂
      (SameOutcome fun a b => a.arranged p = b.arranged p)
      (l.tree.label.liveEntries r l.above f) (m.tree.label.liveEntries r' m.above f))
      (t.walk []) (u.walk []) := by
    refine hwalks.imp fun l m hlm f => ?_
    obtain ⟨htree, habove⟩ := Located.mk.inj hlm
    have hlabel := congrArg Tree.label htree
    rw [Tree.label_map, Tree.label_map] at hlabel
    exact liveEntries_alike hp hlabel habove hr.outline f
  have hconsulted : ((t.walk []).flatMap fun l => l.tree.label.fitConsulted r) =
      (u.walk []).flatMap fun l => l.tree.label.fitConsulted r' := by
    have hsketch : ∀ (q : Registry) (x : ViewTree),
        (((x.map (sketch p)).walk []).flatMap fun l => l.tree.label.fitConsulted q.outline) =
          (x.walk []).flatMap fun l => l.tree.label.fitConsulted q := by
      intro q x
      rw [Tree.walk_map_nil, List.flatMap_map]
      refine List.flatMap_congr fun l _ => ?_
      rw [Tree.label_map, fitConsulted_sketch]
    rw [← hsketch, h, hr.outline, hsketch]
  have hmarks : marks r [] t = marks r' [] u := by
    rw [← marks_sketch t r [], h, hr.outline]
    exact marks_sketch u r' []
  have hseen : projectionSeenFrom t = projectionSeenFrom u := by
    rw [← projectionSeenFrom_sketch t, h, projectionSeenFrom_sketch]
  have hsignals : signals config settings t = signals config' settings u := by
    rw [← signals_sketch t, h, hconfig, signals_sketch]
  unfold assemble
  refine (componentLists_outcome hentries).with_results.bind ?_
  rintro lists lists' ⟨hlists, hok, hok'⟩
  refine .ok ⟨rfl, hsignals, ?_, ?_, hmarks⟩
  · simp only
    rw [consulted_componentLists hok, consulted_componentLists hok', hconsulted, hmarks, hseen]
    exact (hr.note _).emit _
  · intro f
    cases f with
    | projection => exact hlists .projection
    | scale => exact hlists .scale
    | axis => exact hlists .axis
    | legend => exact hlists .legend

end ViewTree

namespace TopLevelSpec

variable {D : DataSpec → DataSpec → Prop} {A B : DataSpec → Prop}
  {Q : SourceKey → SourceKey → Prop} {J : Json → Json → Prop} {t t' : TopLevelSpec}
  {settings : Settings}

/-- Where both specifications declare a dataset, with rows that correspond, or neither does, its root
datasets correspond. -/
theorem namedSource_alike {n : String} {R : List Fields → List Fields → Prop}
    (h : Option.Rel R (t.datasets.get? n) (t'.datasets.get? n)) (hrefl : ∀ j, J j j)
    (hrows : ∀ rows rows', R rows rows' →
      J (.obj [("name", .str n), ("values", DataSpec.rowsJson rows)])
        (.obj [("name", .str n), ("values", DataSpec.rowsJson rows')])) :
    SameOutcome (Source.Alike J) ((t.requested settings).namedSource n)
      ((t'.requested settings).namedSource n) := by
  have hdeclared : ∀ t : TopLevelSpec,
      (t.requested settings).declared = t.datasets.mapValues DataSpec.rowsJson := fun _ => rfl
  have hstrict : ∀ t : TopLevelSpec, (t.requested settings).strict = settings.isStrict :=
    fun _ => rfl
  unfold Registry.namedSource
  rw [hdeclared, hdeclared, hstrict, hstrict, OrderedMap.get?_mapValues, OrderedMap.get?_mapValues]
  generalize t.datasets.get? n = o, t'.datasets.get? n = o' at h
  cases h with
  | none =>
    simp only [Option.map_none]
    split
    · exact .error _
    · exact .ok (.mk_name n (hrefl _))
  | some hrow => exact .ok (.mk_name n (hrows _ _ hrow))

/-- The definitions that a compile finds root datasets for, up to the first one that has none. -/
def lookedUp (settings : Settings) (t : TopLevelSpec) : List DataSpec :=
  (t.requested settings).lookedUp 0 (t.resolved settings).labels

/-- Alike specifications are compiled to alike documents, or fail with the same error. -/
theorem compile_alike (hp : p.IsUniform) (law : RootLaw D A B Q J) (h : t.Alike p D t')
    (hnamed : ∀ n, SameOutcome (Source.Alike J) ((t.requested settings).namedSource n)
      ((t'.requested settings).namedSource n))
    (hA : ∀ d ∈ t.lookedUp settings, A d) (hB : ∀ e ∈ t'.lookedUp settings, B e) :
    SameOutcome (Document.Alike p J) (t.compile settings) (t'.compile settings) := by
  have htree := ViewTree.sketch_resolved hp settings h
  have hrequested : Registry.Alike Q J (t.requested settings) (t'.requested settings) := by
    refine ⟨?_, hnamed, .nil⟩
    unfold requested
    rw [← (t.resolved settings).requestedOutputs_sketch (p := p), htree,
      ViewTree.requestedOutputs_sketch]
    rfl
  have hlabels : List.Forall₂ (fun v w => v.sketch p = w.sketch p ∧ v.SameData D w)
      (t.resolved settings).labels (t'.resolved settings).labels := by
    have hsketches := forall₂_of_map_eq_map (f := View.sketch p) (g := View.sketch p)
      (l := (t.resolved settings).labels) (m := (t'.resolved settings).labels)
      (by rw [← Tree.labels_map, htree, Tree.labels_map])
    exact forall₂_and hsketches (ViewTree.sameData_resolved settings h)
  have hregistered := hrequested.registerViews law hlabels 0 hA hB
  unfold compile compileWithData registered
  refine (hregistered.bind fun r r' hr => ?_).map fun x y hxy => hxy
  exact ViewTree.assemble_alike hp h.config htree hr.link

end TopLevelSpec

end ChartLowering
