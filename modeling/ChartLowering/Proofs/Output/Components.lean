import ChartLowering.Proofs.Sharing.Promotion

/-
  The components of a document.

  A document has one entry for every live component of the resolved tree, in the order of the views
  (`Compiled.entries`), and a compile that ends well has completed all of them. `View.entry` is one
  component completed in its view. Explicit properties go over everything that completes an entry,
  so an entry shows each of them (`get?_entry_of_explicit`).
-/

namespace ChartLowering

/-! ## Results in order -/

theorem bind_eq_ok {ε α β : Type} {x : Except ε α} {f : α → Except ε β} {b : β} :
    (x >>= f) = .ok b ↔ ∃ a, x = .ok a ∧ f a = .ok b := by
  cases x <;> simp [bind, Except.bind]

theorem map_eq_ok {ε α β : Type} {f : α → β} {x : Except ε α} {b : β} :
    x.map f = .ok b ↔ ∃ a, x = .ok a ∧ f a = b := by
  cases x <;> simp [Except.map]

/-- What is made of a result ends in an error if and only if the result does. -/
theorem map_eq_error_iff {ε α β : Type} (f : α → β) {x : Except ε α} {e : ε} :
    x.map f = .error e ↔ x = .error e := by
  cases x <;> simp [Except.map]

/-- Going through a list ends well if every step does. -/
theorem mapM_eq_ok {ε α β : Type} {f : α → Except ε β} {l : List α} {r : List β} :
    l.mapM f = .ok r ↔ l.map f = r.map Except.ok := by
  induction l generalizing r with
  | nil =>
    rw [List.mapM_nil, List.map_nil]
    show Except.ok [] = Except.ok r ↔ _
    rw [Except.ok.injEq, eq_comm, eq_comm (a := []), List.map_eq_nil_iff]
  | cons a rest ih =>
    rw [List.mapM_cons, bind_eq_ok, List.map_cons]
    constructor
    · rintro ⟨b, hb, h⟩
      obtain ⟨bs, hbs, hr⟩ := bind_eq_ok.1 h
      obtain rfl : b :: bs = r := Except.ok.inj hr
      rw [List.map_cons, hb, ih.1 hbs]
    · intro h
      cases r with
      | nil => cases h
      | cons b bs =>
        obtain ⟨hb, hbs⟩ := List.cons.inj h
        refine ⟨b, hb, ?_⟩
        rw [ih.2 hbs]
        rfl

/-- Going through a list ends well, or with the error of one of its steps. -/
theorem mapM_ok_or_error {ε α β : Type} (f : α → Except ε β) (l : List α) :
    (∃ r, l.mapM f = .ok r) ∨ ∃ a ∈ l, ∃ e, f a = .error e ∧ l.mapM f = .error e := by
  induction l with
  | nil => exact Or.inl ⟨[], List.mapM_nil⟩
  | cons a rest ih =>
    rw [List.mapM_cons]
    cases ha : f a with
    | error e => exact Or.inr ⟨a, List.mem_cons_self, e, ha, rfl⟩
    | ok b =>
      rcases ih with ⟨bs, hbs⟩ | ⟨c, hc, e, he, hrest⟩
      · rw [hbs]
        exact Or.inl ⟨b :: bs, rfl⟩
      · rw [hrest]
        exact Or.inr ⟨c, List.mem_cons_of_mem a hc, e, he, rfl⟩

/-! ## Maps read off in order -/

/-- A map is read off from any list of keys that has its own in order. -/
theorem OrderedMap.entries_eq_filterMap {κ α : Type} [DecidableEq κ] {m : OrderedMap κ α}
    {ks : List κ} (hks : ks.Nodup) (h : m.keys.Sublist ks) :
    m.entries = ks.filterMap fun k => (m.get? k).map fun a => (k, a) := by
  obtain ⟨l⟩ := m
  have hl : (l.map Prod.fst).Sublist ks := h
  show l = ks.filterMap fun k => (OrderedMap.find? k l).map fun a => (k, a)
  clear h
  induction ks generalizing l with
  | nil => rw [List.map_eq_nil_iff.1 (List.sublist_nil.1 hl)]; rfl
  | cons x rest ih =>
    obtain ⟨hx, hrest⟩ := List.nodup_cons.1 hks
    rw [List.filterMap_cons]
    rcases List.sublist_cons_iff.1 hl with hskip | ⟨keys, hkeys, htake⟩
    · have hnone : OrderedMap.find? x l = none := by
        rw [← Option.not_isSome_iff_eq_none, OrderedMap.find?_isSome]
        exact fun hmem => hx (hskip.subset hmem)
      rw [hnone, Option.map_none]
      exact ih hrest l hskip
    · cases l with
      | nil => cases hkeys
      | cons e others =>
        obtain ⟨rfl, rfl⟩ := List.cons.inj hkeys
        have hself : OrderedMap.find? e.1 (e :: others) = some e.2 := by simp [OrderedMap.find?]
        rw [hself, Option.map_some]
        have hother : ∀ k ∈ rest, (OrderedMap.find? k (e :: others)).map (fun a => (k, a)) =
            (OrderedMap.find? k others).map fun a => (k, a) := by
          intro k hk
          have hne : k ≠ e.1 := fun he => hx (he ▸ hk)
          simp [OrderedMap.find?, hne]
        rw [List.filterMap_congr hother, ← ih hrest others htake]

/-! ## Entries -/

/-- The entries of a family. -/
def ComponentLists.entries (lists : ComponentLists) : Family → List Fields
  | .projection => lists.projections
  | .scale => lists.scales
  | .axis => lists.axes
  | .legend => lists.legends

/-- The entries of a family. -/
def Document.entries (d : Document) : Family → List Fields
  | .projection => d.projections
  | .scale => d.scales
  | .axis => d.axes
  | .legend => d.legends

namespace View

/-- A component of a slot as it is written out. -/
def entry (r : Registry) (v : View) (above : List View) (s : Slot) (k : Component) :
    Except CompileError Fields :=
  match s.family with
  | .projection => projectionFields r v above k
  | .scale => .ok k.combine
  | .axis => v.axisFields above k
  | .legend => v.legendFields above s.channel k

/-- The live components of a family as they are written out. -/
def liveEntries (r : Registry) (v : View) (above : List View) (f : Family) :
    List (Except CompileError Fields) :=
  (v.liveComponents f).map fun e => v.entry r above ⟨f, e.1⟩ e.2

theorem entries_componentLists {r : Registry} {v : View} {above : List View}
    {lists : ComponentLists} (h : v.componentLists r above = .ok lists) (f : Family) :
    v.liveEntries r above f = (lists.entries f).map Except.ok := by
  unfold componentLists at h
  obtain ⟨axes, haxes, h⟩ := bind_eq_ok.1 h
  obtain ⟨legends, hlegends, h⟩ := bind_eq_ok.1 h
  obtain ⟨projections, hprojections, h⟩ := bind_eq_ok.1 h
  obtain rfl := Except.ok.inj h
  cases f with
  | projection => exact mapM_eq_ok.1 hprojections
  | axis => exact mapM_eq_ok.1 haxes
  | legend => exact mapM_eq_ok.1 hlegends
  | scale =>
    unfold liveEntries ComponentLists.entries
    rw [List.map_map]
    rfl

theorem mem_liveComponents {v : View} (h : v.components.keys.Nodup) {f : Family}
    {c : Option Channel} {k : Component} :
    (c, k) ∈ v.liveComponents f ↔ v.components.get? ⟨f, c⟩ = some k ∧ k.merged = false := by
  unfold liveComponents
  rw [List.mem_filterMap]
  constructor
  · rintro ⟨⟨s, j⟩, he, hj⟩
    split at hj
    · rename_i hf
      obtain ⟨rfl, rfl⟩ := Prod.mk.inj (Option.some.inj hj)
      refine ⟨?_, by simpa [Component.isLive] using hf.2⟩
      obtain rfl : s.family = f := hf.1
      exact OrderedMap.get?_of_mem h he
    · cases hj
  · rintro ⟨hk, hlive⟩
    refine ⟨(⟨f, c⟩, k), OrderedMap.mem_entries_of_get? hk, ?_⟩
    simp [Component.isLive, hlive]

/-- The components of a view are completed, or one of the live ones cannot be. -/
theorem componentLists_ok_or_error {r : Registry} {v : View} {above : List View}
    (h : v.components.keys.Nodup) :
    (∃ lists, v.componentLists r above = .ok lists) ∨
      ∃ s k e, v.components.get? s = some k ∧ k.merged = false ∧
        v.entry r above s k = .error e ∧ v.componentLists r above = .error e := by
  unfold componentLists
  rcases mapM_ok_or_error (fun e => v.axisFields above e.2) (v.liveComponents .axis) with
    ⟨axes, haxes⟩ | ⟨⟨c, k⟩, hk, e, he, haxes⟩
  · rcases mapM_ok_or_error (fun e => v.legendFields above e.1 e.2) (v.liveComponents .legend) with
      ⟨legends, hlegends⟩ | ⟨⟨c, k⟩, hk, e, he, hlegends⟩
    · rcases mapM_ok_or_error (fun e => projectionFields r v above e.2)
          (v.liveComponents .projection) with
        ⟨projections, hprojections⟩ | ⟨⟨c, k⟩, hk, e, he, hprojections⟩
      · rw [haxes, hlegends, hprojections]
        exact Or.inl ⟨_, rfl⟩
      · obtain ⟨hget, hlive⟩ := (mem_liveComponents h).1 hk
        rw [haxes, hlegends, hprojections]
        exact Or.inr ⟨⟨.projection, c⟩, k, e, hget, hlive, he, rfl⟩
    · obtain ⟨hget, hlive⟩ := (mem_liveComponents h).1 hk
      rw [haxes, hlegends]
      exact Or.inr ⟨⟨.legend, c⟩, k, e, hget, hlive, he, rfl⟩
  · obtain ⟨hget, hlive⟩ := (mem_liveComponents h).1 hk
    rw [haxes]
    exact Or.inr ⟨⟨.axis, c⟩, k, e, hget, hlive, he, rfl⟩

/-- Where the components of a view are completed, every live one is. -/
theorem exists_entry_of_componentLists {r : Registry} {v : View} {above : List View}
    {lists : ComponentLists} (h : v.components.keys.Nodup)
    (hlists : v.componentLists r above = .ok lists) {s : Slot} {k : Component}
    (hk : v.components.get? s = some k) (hlive : k.merged = false) :
    ∃ e, v.entry r above s k = .ok e := by
  have hmem : v.entry r above s k ∈ v.liveEntries r above s.family :=
    List.mem_map.2 ⟨(s.channel, k), (mem_liveComponents h).2 ⟨hk, hlive⟩, rfl⟩
  rw [entries_componentLists hlists, List.mem_map] at hmem
  obtain ⟨e, -, he⟩ := hmem
  exact ⟨e, he.symm⟩

end View

namespace ViewTree

/-- Views are completed, or one of them cannot be. -/
theorem componentLists_ok_or_error (r : Registry) (views : List (Located View)) :
    (∃ lists, componentLists r views = .ok lists) ∨
      ∃ l ∈ views, ∃ e, l.tree.label.componentLists r l.above = .error e ∧
        componentLists r views = .error e := by
  induction views with
  | nil => exact Or.inl ⟨.empty, rfl⟩
  | cons l rest ih =>
    rw [componentLists]
    cases hl : l.tree.label.componentLists r l.above with
    | error e => exact Or.inr ⟨l, List.mem_cons_self, e, hl, rfl⟩
    | ok here =>
      rcases ih with ⟨lists, hlists⟩ | ⟨m, hm, e, he, hrest⟩
      · rw [hlists]
        exact Or.inl ⟨_, rfl⟩
      · rw [hrest]
        exact Or.inr ⟨m, List.mem_cons_of_mem l hm, e, he, rfl⟩

/-- Views are completed if each of them is. -/
theorem exists_componentLists {r : Registry} {views : List (Located View)}
    (h : ∀ l ∈ views, ∃ lists, l.tree.label.componentLists r l.above = .ok lists) :
    ∃ lists, componentLists r views = .ok lists := by
  induction views with
  | nil => exact ⟨.empty, rfl⟩
  | cons l rest ih =>
    obtain ⟨⟨here, hhere⟩, hrest⟩ := List.forall_mem_cons.1 h
    obtain ⟨others, hothers⟩ := ih hrest
    refine ⟨here.append others, ?_⟩
    unfold componentLists
    rw [hhere, hothers]
    rfl

/-- Completing views ends at the first one that cannot be completed. -/
theorem componentLists_eq_error {r : Registry} {before after : List (Located View)}
    {l : Located View} {e : CompileError}
    (hbefore : ∀ p ∈ before, ∃ lists, p.tree.label.componentLists r p.above = .ok lists)
    (hl : l.tree.label.componentLists r l.above = .error e) :
    componentLists r (before ++ l :: after) = .error e := by
  induction before with
  | nil =>
    rw [List.nil_append, componentLists, hl]
    rfl
  | cons p rest ih =>
    obtain ⟨⟨here, hhere⟩, hrest⟩ := List.forall_mem_cons.1 hbefore
    rw [List.cons_append, componentLists, hhere, ih hrest]
    rfl

/-- The live components of a family in all views of a list, as they are written out. -/
def liveEntries (r : Registry) (views : List (Located View)) (f : Family) :
    List (Except CompileError Fields) :=
  views.flatMap fun l => l.tree.label.liveEntries r l.above f

theorem entries_componentLists {r : Registry} {views : List (Located View)}
    {lists : ComponentLists} (h : componentLists r views = .ok lists) (f : Family) :
    liveEntries r views f = (lists.entries f).map Except.ok := by
  induction views generalizing lists with
  | nil =>
    obtain rfl := Except.ok.inj h
    cases f <;> rfl
  | cons l rest ih =>
    unfold componentLists at h
    obtain ⟨here, hhere, h⟩ := bind_eq_ok.1 h
    obtain ⟨others, hothers, h⟩ := bind_eq_ok.1 h
    obtain rfl := Except.ok.inj h
    have hentries : (here.append others).entries f = here.entries f ++ others.entries f := by
      cases f <;> rfl
    have hrest := ih hothers
    unfold liveEntries at hrest ⊢
    rw [List.flatMap_cons, hrest, View.entries_componentLists hhere, hentries, List.map_append]

/-- What a document is put together from. -/
structure Compiled (t : ViewTree) (r : Registry) (d : Document) : Prop where
  entries : ∀ f, liveEntries r (t.walk []) f = (d.entries f).map Except.ok
  marks : d.marks = t.marks r []
  data : ∃ consulted, d.data = (r.note consulted).emit t.projectionSeenFrom

theorem compiled_assemble {config : Config} {settings : Settings} {r : Registry} {t : ViewTree}
    {result : Document × Registry} (h : t.assemble config settings r = .ok result) :
    t.Compiled r result.1 := by
  unfold assemble at h
  obtain ⟨lists, hlists, h⟩ := bind_eq_ok.1 h
  obtain rfl := Except.ok.inj h
  refine ⟨fun f => ?_, rfl, _, rfl⟩
  rw [entries_componentLists hlists]
  cases f <;> rfl

end ViewTree

/-- A document is put together from the resolved tree over the linked datasets. -/
theorem TopLevelSpec.compiled_of_compile {settings : Settings} {t : TopLevelSpec} {d : Document}
    (h : t.compile settings = .ok d) :
    ∃ r, t.registered settings = .ok r ∧ (t.resolved settings).Compiled r.link d := by
  unfold compile at h
  cases hdata : t.compileWithData settings with
  | error e => rw [hdata] at h; cases h
  | ok result =>
    rw [hdata] at h
    obtain rfl := Except.ok.inj h
    obtain ⟨r, hr, hassemble⟩ := bind_eq_ok.1 hdata
    exact ⟨r, hr, ViewTree.compiled_assemble hassemble⟩

namespace ViewTree

open View

variable {config : Config} {settings : Settings} {t : ViewTree} {r : Registry} {d : Document}

/-- The entries of a document are the live components, written out in their views. -/
theorem Compiled.mem_entries (hd : t.Compiled r d) (h : IsResolved config settings t) {f : Family}
    {e : Fields} :
    e ∈ d.entries f ↔ ∃ l ∈ t.walk [], ∃ c k, l.tree.label.components.get? ⟨f, c⟩ = some k ∧
      k.merged = false ∧ l.tree.label.entry r l.above ⟨f, c⟩ k = .ok e := by
  have hmem : e ∈ d.entries f ↔ Except.ok e ∈ liveEntries r (t.walk []) f := by
    rw [hd.entries f]
    simp
  rw [hmem]
  unfold liveEntries View.liveEntries
  rw [List.mem_flatMap]
  constructor
  · rintro ⟨l, hl, he⟩
    obtain ⟨⟨c, k⟩, hk, he⟩ := List.mem_map.1 he
    obtain ⟨hk, hlive⟩ := (mem_liveComponents (h.settled l hl).nodup).1 hk
    exact ⟨l, hl, c, k, hk, hlive, he⟩
  · rintro ⟨l, hl, c, k, hk, hlive, he⟩
    exact ⟨l, hl, List.mem_map.2 ⟨(c, k), (mem_liveComponents (h.settled l hl).nodup).2 ⟨hk, hlive⟩, he⟩⟩

/-- The entries of a view stand in the order in which its components are shared. -/
theorem Settled.liveEntries_eq {l : Located View} (h : Settled config settings l) (r : Registry)
    (f : Family) :
    l.tree.label.liveEntries r l.above f = sharingOrder.filterMap fun s =>
      (l.tree.label.components.get? s).bind fun k =>
        if s.family = f ∧ k.merged = false then some (l.tree.label.entry r l.above s k)
        else none := by
  unfold View.liveEntries View.liveComponents
  rw [OrderedMap.entries_eq_filterMap nodup_sharingOrder h.keys_sublist, List.filterMap_filterMap,
    List.map_filterMap]
  refine List.filterMap_congr fun s _ => ?_
  cases l.tree.label.components.get? s with
  | none => rfl
  | some k =>
    obtain ⟨g, c⟩ := s
    by_cases hboth : g = f ∧ k.merged = false
    · obtain ⟨rfl, hlive⟩ := hboth
      simp [Component.isLive, hlive]
    · simp [Component.isLive, hboth]

/-- Every live component is written out. -/
theorem Compiled.exists_entry (hd : t.Compiled r d) (h : IsResolved config settings t)
    {l : Located View} (hl : l ∈ t.walk []) {s : Slot} {k : Component}
    (hk : l.tree.label.components.get? s = some k) (hlive : k.merged = false) :
    ∃ e, l.tree.label.entry r l.above s k = .ok e ∧ e ∈ d.entries s.family := by
  have hmem : l.tree.label.entry r l.above s k ∈ liveEntries r (t.walk []) s.family := by
    unfold liveEntries View.liveEntries
    rw [List.mem_flatMap]
    exact ⟨l, hl, List.mem_map.2 ⟨(s.channel, k),
      (mem_liveComponents (h.settled l hl).nodup).2 ⟨hk, hlive⟩, rfl⟩⟩
  rw [hd.entries s.family, List.mem_map] at hmem
  obtain ⟨e, he, heq⟩ := hmem
  exact ⟨e, heq.symm, he⟩

end ViewTree

end ChartLowering
