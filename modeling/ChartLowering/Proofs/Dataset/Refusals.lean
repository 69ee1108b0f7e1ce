import ChartLowering.Proofs.Dataset.Names
import ChartLowering.Proofs.Names.Placed

/-
  Where a compile refuses data.

  Definitions are vetted where the views register their outputs. One that is nested too deeply is
  refused whatever it refers to, and a strict compile also refuses a reference that is not declared
  (`DataSpec.refusal?`). A unit registers what it inherits too, and a composite view what is its own;
  but nothing is vetted twice with another outcome, so the views can be left for the definitions that
  the specification gives (`findSome?_build`). A run of registrations ends at the first of these that
  is refused, and nowhere else (`registered_eq_error_iff`).
-/

namespace ChartLowering

namespace DataSpec

variable {takes : String → Bool} {d : DataSpec} {e : CompileError}

/-- Why a reference is refused, if it is, where references to some datasets are taken. -/
def undeclared? (takes : String → Bool) (d : DataSpec) : Option CompileError :=
  match d.name? with
  | some n => if takes n then none else some (.undeclaredDataset n)
  | none => none

/-- Why a definition is refused, if it is. -/
def refusal? (takes : String → Bool) (d : DataSpec) : Option CompileError :=
  if d.isTooDeep then some .tooDeep else d.undeclared? takes

theorem undeclared?_eq_none_iff :
    d.undeclared? takes = none ↔ ∀ n, d.name? = some n → takes n = true := by
  unfold undeclared?
  cases d.name? <;> simp

theorem undeclared?_eq_some_iff :
    d.undeclared? takes = some e ↔
      ∃ n, d.name? = some n ∧ takes n = false ∧ e = .undeclaredDataset n := by
  unfold undeclared?
  cases d.name? with
  | none => simp
  | some n =>
    cases hn : takes n with
    | true => simp [hn]
    | false => simp [hn, @eq_comm _ e]

theorem refusal?_eq_none_iff : d.refusal? takes = none ↔
    d.isTooDeep = false ∧ ∀ n, d.name? = some n → takes n = true := by
  rw [← undeclared?_eq_none_iff, refusal?]
  cases d.isTooDeep <;> simp

theorem refusal?_eq_undeclared_iff {n : String} :
    d.refusal? takes = some (.undeclaredDataset n) ↔
      d.isTooDeep = false ∧ d.name? = some n ∧ takes n = false := by
  unfold refusal?
  cases d.isTooDeep with
  | true => simp
  | false => simp [undeclared?_eq_some_iff]

theorem refusal?_eq_tooDeep_iff : d.refusal? takes = some .tooDeep ↔ d.isTooDeep = true := by
  unfold refusal?
  cases d.isTooDeep with
  | true => simp
  | false => simp [undeclared?_eq_some_iff]

/-- A definition is refused for its depth or for its reference. -/
theorem refusal?_cases (h : d.refusal? takes = some e) :
    e = .tooDeep ∨ ∃ n, e = .undeclaredDataset n := by
  unfold refusal? at h
  split at h
  · exact Or.inl (Option.some.inj h).symm
  · obtain ⟨n, -, -, rfl⟩ := undeclared?_eq_some_iff.1 h
    exact Or.inr ⟨n, rfl⟩

/-- Unless a definition that is nested too deeply is the first to be refused, depths do not count. -/
theorem findSome?_refusal? (takes : String → Bool) (bases : List ViewBase) :
    bases.findSome? (fun b => b.data.bind (·.refusal? takes)) = some .tooDeep ∨
      bases.findSome? (fun b => b.data.bind (·.refusal? takes)) =
        bases.findSome? fun b => b.data.bind (·.undeclared? takes) := by
  induction bases with
  | nil => exact Or.inr rfl
  | cons b rest ih =>
    rw [List.findSome?_cons, List.findSome?_cons]
    cases b.data with
    | none => exact ih
    | some d =>
      rw [Option.bind_some, Option.bind_some, refusal?]
      cases d.isTooDeep with
      | true => exact Or.inl rfl
      | false =>
        rw [if_neg Bool.false_ne_true]
        cases d.undeclared? takes with
        | none => exact ih
        | some e => exact Or.inr rfl

end DataSpec

/-! ## Registering -/

namespace Registry

variable {r q : Registry} {d : DataSpec} {e : CompileError}

/-- Whether a registry takes a reference to a dataset of some name. -/
def takes (r : Registry) (n : String) : Bool := !r.strict || r.declared.contains n

theorem takes_eq_false_iff {n : String} :
    r.takes n = false ↔ r.strict = true ∧ r.declared.get? n = none := by
  rw [takes, Bool.or_eq_false_iff, Bool.not_eq_false', OrderedMap.contains,
    Option.isSome_eq_false_iff, Option.isNone_iff_eq_none]

/-- Whether a registry has found roots only for references that it takes. -/
def Vetted (r : Registry) : Prop := ∀ n, .named n ∈ r.sources.keys → r.takes n = true

theorem sourceFor_of_refusal (h : r.Vetted) (hd : d.refusal? r.takes = some e) :
    r.sourceFor d = .error e := by
  unfold DataSpec.refusal? at hd
  unfold sourceFor
  simp only
  split at hd
  · rename_i hdeep
    rw [if_pos hdeep, Option.some.inj hd]
  · rename_i hshallow
    rw [if_neg hshallow]
    obtain ⟨n, hn, hrefused, rfl⟩ := DataSpec.undeclared?_eq_some_iff.1 hd
    obtain ⟨hstrict, hnone⟩ := takes_eq_false_iff.1 hrefused
    have hfresh : r.sources.get? (sourceKey d) = none := by
      rw [OrderedMap.get?_eq_none_iff, sourceKey_eq_named.2 hn]
      exact fun hkey => Bool.false_ne_true (hrefused.symm.trans (h n hkey))
    have horigin : d.origin = .name n := by
      unfold DataSpec.name? at hn
      split at hn
      · rename_i m hm
        rw [hm, Option.some.inj hn]
      · cases hn
    simp only [hfresh, horigin, namedSource, hnone, hstrict]
    rfl

/-- A definition has no root dataset only where it is refused. -/
theorem refusal_of_sourceFor (he : r.sourceFor d = .error e) : d.refusal? r.takes = some e := by
  unfold sourceFor at he
  simp only at he
  unfold DataSpec.refusal?
  split at he
  · rename_i hdeep
    rw [if_pos hdeep]
    exact congrArg some (Except.error.inj he)
  · rename_i hshallow
    rw [if_neg hshallow]
    split at he
    · cases he
    · split at he
      · rename_i n hn
        have hname : d.name? = some n := by rw [DataSpec.name?, hn]
        unfold namedSource at he
        cases hrows : r.declared.get? n with
        | some rows => rw [hrows] at he; cases he
        | none =>
          simp only [hrows] at he
          split at he
          · rename_i hstrict
            exact DataSpec.undeclared?_eq_some_iff.2
              ⟨n, hname, takes_eq_false_iff.2 ⟨hstrict, hrows⟩, (Except.error.inj he).symm⟩
          · cases he
      · cases he
      · cases he

/-- A registry stays vetted. -/
theorem Vetted.sourceFor (h : r.Vetted) (hd : d.refusal? r.takes = none) {s : Source}
    (hs : r.sourceFor d = .ok (s, q)) : q.Vetted ∧ q.takes = r.takes := by
  rcases sourceFor_cases hs with ⟨-, rfl⟩ | ⟨-, -, rfl⟩
  · exact ⟨h, rfl⟩
  · refine ⟨fun n hn => ?_, rfl⟩
    change .named n ∈ (r.sources.insert (sourceKey d) (r.newRoot d)).keys at hn
    show r.takes n = true
    rw [OrderedMap.keys_insert] at hn
    split at hn
    · exact h n hn
    · rcases List.mem_append.1 hn with hn | hn
      · exact h n hn
      · have hkey := sourceKey_eq_named.1 (List.mem_singleton.1 hn).symm
        exact (DataSpec.refusal?_eq_none_iff.1 hd).2 n hkey

/-- A run of registrations ends at the first definition that is refused. -/
theorem registerViews_eq_error_iff (h : r.Vetted) {views : List View} (index : Nat) :
    r.registerViews index views = .error e ↔
      views.findSome? (fun v => v.outputData?.bind (·.refusal? r.takes)) = some e := by
  induction views generalizing r index with
  | nil => simp [registerViews]
  | cons v rest ih =>
    rw [registerViews, View.registerOutput_eq, List.findSome?_cons]
    cases hv : v.outputData? with
    | none => exact ih h (index + 1)
    | some d =>
      simp only [Option.bind_some]
      cases hd : d.refusal? r.takes with
      | some cause =>
        rw [sourceFor_of_refusal h hd]
        exact ⟨fun he => congrArg some (Except.error.inj he), fun he => by cases he; rfl⟩
      | none =>
        cases hs : r.sourceFor d with
        | error cause =>
          rw [refusal_of_sourceFor hs] at hd
          cases hd
        | ok result =>
          obtain ⟨hvetted, htakes⟩ := h.sourceFor hd hs
          have hnext := ih (r := result.2.register v.mainOutput
            ⟨some result.1, v.outputTransforms index⟩) hvetted (index + 1)
          rw [show (result.2.register v.mainOutput _).takes = r.takes from htakes] at hnext
          exact hnext

end Registry

/-! ## Definitions in the order of the views -/

namespace ViewTree

open View

variable {β : Type} {f : DataSpec → Option β} {inherited : Option DataSpec}

/-- Of a view's data only its own count, if nothing is found in what it inherits. -/
theorem bind_data_viewOf (hinherited : inherited.bind f = none) (name : String) (form : ViewForm)
    (base : ViewBase) :
    (viewOf name form base inherited).data.bind f = base.data.bind f ∧
      (viewOf name form base inherited).outputData?.bind f = base.data.bind f := by
  have hdata := data_viewOf name form base inherited
  have hown := ownData_viewOf name form base inherited
  cases hbase : base.data with
  | none =>
    rw [hbase, Option.none_or] at hdata
    rw [hdata]
    refine ⟨hinherited, ?_⟩
    unfold View.outputData?
    split
    · rw [hdata]
      exact hinherited
    · rfl
  | some d =>
    rw [hbase, Option.some_or] at hdata
    rw [hbase] at hown
    rw [hdata]
    refine ⟨rfl, ?_⟩
    unfold View.outputData? View.hasOutput
    rw [hdata, hown]
    simp

/-- What is found among a view and the views below it, from what is found below. -/
theorem findSome?_node (hinherited : inherited.bind f = none) (name : String) (form : ViewForm)
    (base : ViewBase) {kids : List ViewTree} {bases : List ViewBase}
    (hkids : (viewOf name form base inherited).data.bind f = none →
      (kids.flatMap Tree.labels).findSome? (fun v => v.outputData?.bind f) =
        bases.findSome? fun b => b.data.bind f) :
    (Tree.node (viewOf name form base inherited) kids).labels.findSome?
        (fun v => v.outputData?.bind f) =
      (base :: bases).findSome? fun b => b.data.bind f := by
  obtain ⟨hdata, houtput⟩ := bind_data_viewOf hinherited name form base
  rw [Tree.labels_node, List.findSome?_cons, List.findSome?_cons, houtput]
  cases hbase : base.data.bind f with
  | some b => rfl
  | none => exact hkids (hdata.trans hbase)

mutual

/-- What is found first among the data that the views of a specification register is found first
among those that it gives. -/
theorem findSome?_build (name : String) {inherited : Option DataSpec}
    (hinherited : inherited.bind f = none) : ∀ spec : ViewSpec,
      (build name inherited spec).labels.findSome? (fun v => v.outputData?.bind f) =
        spec.bases.findSome? fun b => b.data.bind f
  | .unit base u => by
    rw [build, ViewSpec.bases]
    exact findSome?_node hinherited name _ base fun _ => rfl
  | .layer base children r => by
    rw [build, ViewSpec.bases]
    exact findSome?_node hinherited name _ base fun hdata =>
      findSome?_buildAll name layerPosition hdata 0 children
  | .facet base mapping child r => by
    rw [build, ViewSpec.bases]
    refine findSome?_node hinherited name _ base fun hdata => ?_
    rw [List.flatMap_singleton]
    exact findSome?_build _ hdata child
  | .concat base children direction r => by
    rw [build, ViewSpec.bases]
    exact findSome?_node hinherited name _ base fun hdata =>
      findSome?_buildAll name concatPosition hdata 0 children

theorem findSome?_buildAll (parent : String) (position : Nat → String)
    {inherited : Option DataSpec} (hinherited : inherited.bind f = none) (i : Nat) :
    ∀ specs : List ViewSpec,
      ((buildAll parent position inherited i specs).flatMap Tree.labels).findSome?
          (fun v => v.outputData?.bind f) =
        (ViewSpec.basesAll specs).findSome? fun b => b.data.bind f
  | [] => by
    rw [buildAll, ViewSpec.basesAll]
    rfl
  | child :: rest => by
    rw [buildAll, ViewSpec.basesAll, List.flatMap_cons, List.findSome?_append,
      List.findSome?_append, findSome?_build _ hinherited child,
      findSome?_buildAll parent position hinherited (i + 1) rest]

end

/-- Resolving the views changes nothing of it. -/
theorem findSome?_resolved (f : DataSpec → Option β) (settings : Settings) (t : TopLevelSpec) :
    (t.resolved settings).labels.findSome? (fun v => v.outputData?.bind f) =
      t.view.bases.findSome? fun b => b.data.bind f := by
  have hmap : ∀ labels : List View, labels.findSome? (fun v => v.outputData?.bind f) =
      (labels.map View.outputData?).findSome? (·.bind f) := by
    intro labels
    rw [List.findSome?_map]
    rfl
  rw [hmap, map_labels_resolved (fun _ _ => rfl) (fun _ => rfl), ← hmap]
  exact findSome?_build _ rfl t.view

end ViewTree

namespace TopLevelSpec

open ViewTree

variable {settings : Settings} {t : TopLevelSpec} {e : CompileError}

/-- Whether a compile takes a definition of data: if it is not nested too deeply, and, where the compile
is strict, is declared if it is a reference. -/
def Admits (settings : Settings) (t : TopLevelSpec) (d : DataSpec) : Prop :=
  d.isTooDeep = false ∧
    (settings.isStrict = true → ∀ n, d.name? = some n → t.datasets.contains n = true)

theorem takes_requested (n : String) :
    (t.requested settings).takes n = (!settings.isStrict || t.datasets.contains n) := by
  show (_ || ((t.datasets.mapValues DataSpec.rowsJson).get? n).isSome) = _
  rw [OrderedMap.get?_mapValues, Option.isSome_map]
  rfl

theorem admits_iff {d : DataSpec} :
    t.Admits settings d ↔ d.refusal? (t.requested settings).takes = none := by
  rw [DataSpec.refusal?_eq_none_iff, Admits]
  simp only [takes_requested]
  cases settings.isStrict <;> simp

/-- What a compile refuses first of the definitions that its specification gives. -/
def firstRefusal? (settings : Settings) (t : TopLevelSpec) : Option CompileError :=
  t.view.bases.findSome? fun b => b.data.bind (·.refusal? (t.requested settings).takes)

theorem bind_refusal?_eq_none_iff {b : ViewBase} :
    b.data.bind (·.refusal? (t.requested settings).takes) = none ↔
      ∀ d, b.data = some d → t.Admits settings d := by
  rw [Option.bind_eq_none_iff]
  exact forall₂_congr fun d _ => admits_iff.symm

theorem firstRefusal?_eq_none_iff : t.firstRefusal? settings = none ↔
    ∀ b ∈ t.view.bases, ∀ d, b.data = some d → t.Admits settings d := by
  rw [firstRefusal?, List.findSome?_eq_none_iff]
  exact forall₂_congr fun b _ => bind_refusal?_eq_none_iff

theorem firstRefusal?_eq_some_iff : t.firstRefusal? settings = some e ↔
    ∃ before b after d, t.view.bases = before ++ b :: after ∧
      (∀ c ∈ before, ∀ d', c.data = some d' → t.Admits settings d') ∧
      b.data = some d ∧ d.refusal? (t.requested settings).takes = some e := by
  rw [firstRefusal?, List.findSome?_eq_some_iff]
  simp only [bind_refusal?_eq_none_iff, Option.bind_eq_some_iff]
  constructor
  · rintro ⟨before, b, after, hbases, ⟨d, hd, he⟩, hbefore⟩
    exact ⟨before, b, after, d, hbases, hbefore, hd, he⟩
  · rintro ⟨before, b, after, d, hbases, hbefore, hd, he⟩
    exact ⟨before, b, after, hbases, ⟨d, hd, he⟩, hbefore⟩

/-- A compile refuses a definition for its depth or for its reference. -/
theorem firstRefusal?_cases (h : t.firstRefusal? settings = some e) :
    e = .tooDeep ∨ ∃ n, e = .undeclaredDataset n := by
  obtain ⟨_, _, _, _, -, -, -, hrefusal⟩ := firstRefusal?_eq_some_iff.1 h
  exact DataSpec.refusal?_cases hrefusal

/-- The first reference that a compile refuses, if depths do not count. -/
def firstUndeclared? (settings : Settings) (t : TopLevelSpec) : Option CompileError :=
  t.view.bases.findSome? fun b => b.data.bind (·.undeclared? (t.requested settings).takes)

theorem firstRefusal?_eq_firstUndeclared? (h : t.firstRefusal? settings ≠ some .tooDeep) :
    t.firstRefusal? settings = t.firstUndeclared? settings :=
  (DataSpec.findSome?_refusal? _ _).resolve_left h

/-- The views of a compile register until a definition is refused. -/
theorem registered_eq_error_iff :
    t.registered settings = .error e ↔ t.firstRefusal? settings = some e := by
  have hvetted : (t.requested settings).Vetted := fun n hn => absurd hn List.not_mem_nil
  rw [registered, Registry.registerViews_eq_error_iff hvetted, findSome?_resolved, firstRefusal?]

/-- Whether some definition of data is nested too deeply. -/
def HasDeepData (t : TopLevelSpec) : Prop :=
  ∃ b ∈ t.view.bases, ∃ d, b.data = some d ∧ d.isTooDeep = true

theorem firstRefusal?_eq_none_of_lenient (hlenient : settings.isStrict = false) :
    t.firstRefusal? settings = none ↔ ¬ t.HasDeepData := by
  rw [firstRefusal?_eq_none_iff]
  simp [HasDeepData, Admits, hlenient]

/-- A lenient compile refuses definitions only for their depth. -/
theorem firstRefusal?_eq_tooDeep_iff (hlenient : settings.isStrict = false) :
    t.firstRefusal? settings = some .tooDeep ↔ t.HasDeepData := by
  have hcases : t.firstRefusal? settings = none ∨ t.firstRefusal? settings = some .tooDeep := by
    cases h : t.firstRefusal? settings with
    | none => exact Or.inl rfl
    | some e =>
      obtain ⟨_, b, _, d, -, -, -, hrefusal⟩ := firstRefusal?_eq_some_iff.1 h
      rcases DataSpec.refusal?_cases hrefusal with rfl | ⟨n, rfl⟩
      · exact Or.inr rfl
      · have hrefused := (DataSpec.refusal?_eq_undeclared_iff.1 hrefusal).2.2
        rw [takes_requested, hlenient] at hrefused
        cases hrefused
  have hnone := firstRefusal?_eq_none_of_lenient (t := t) hlenient
  rcases hcases with h | h
  · rw [h]
    exact iff_of_false nofun (hnone.1 h)
  · refine iff_of_true h (not_not.1 fun hshallow => ?_)
    rw [hnone.2 hshallow] at h
    cases h

theorem exists_registered (h : t.firstRefusal? settings = none) :
    ∃ r, t.registered settings = .ok r := by
  cases hr : t.registered settings with
  | ok r => exact ⟨r, rfl⟩
  | error e =>
    rw [registered_eq_error_iff.1 hr] at h
    cases h

/-- A compile ends where a definition is refused. -/
theorem compile_of_firstRefusal (h : t.firstRefusal? settings = some e) :
    t.compile settings = .error e := by
  unfold compile compileWithData
  rw [registered_eq_error_iff.2 h]
  rfl

end TopLevelSpec

end ChartLowering
