import ChartLowering.Proofs.Output.Failures

/-
  Which dataset a strict compile refuses.

  Of the ways in which a compile can end, only data that are refused concern an undeclared dataset
  (`compile_eq_error_iff`), so that it ends there if and only if this is what it refuses first
  (`undeclared_dataset_iff`). A definition that is nested too deeply is refused whatever it refers to,
  so where a reference is not declared a compile may end in another error (`compile_deepReference`).
-/

namespace ChartLowering

namespace TopLevelSpec

/-- When a strict compile refuses a reference. It ends at an undeclared dataset if and only if, of
all views with data of their own, the first whose data are not admitted has a reference that is not
declared and is not nested too deeply; the error names it. This comes before a missing fit source:
where one ends a compile, all data are admitted. -/
theorem undeclared_dataset_iff {settings : Settings} {t : TopLevelSpec}
    (hstrict : settings.isStrict = true) :
    (∀ n, t.compile settings = .error (.undeclaredDataset n) ↔
      ∃ before b after d, t.view.bases = before ++ b :: after ∧
        (∀ c ∈ before, ∀ e, c.data = some e → t.Admits settings e) ∧
        b.data = some d ∧ d.isTooDeep = false ∧ d.name? = some n ∧
          t.datasets.contains n = false) ∧
    ∀ component view, t.compile settings = .error (.fitSourceMissing component view) →
      ∀ b ∈ t.view.bases, ∀ d, b.data = some d → t.Admits settings d := by
  constructor
  · intro n
    have htakes : ∀ n, (t.requested settings).takes n = t.datasets.contains n := by
      intro n
      rw [takes_requested, hstrict]
      rfl
    rw [compile_eq_error_iff (e := .undeclaredDataset n) nofun fun _ _ => nofun,
      firstRefusal?_eq_some_iff]
    simp only [DataSpec.refusal?_eq_undeclared_iff, htakes]
  · intro component view he
    rcases compile_eq_error_cases he with hrefusal | ⟨hnone, -⟩
    · -- no definition is refused for want of a fit source
      rcases firstRefusal?_cases hrefusal with h | ⟨_, h⟩
      · cases h
      · cases h
    · exact firstRefusal?_eq_none_iff.1 hnone

/-- The first of two maps is of land, which is not declared; that nothing backs the second comes
later. -/
theorem undeclared_dataset_mapsApart : strictSettings.isStrict = true ∧
    mapsApart.compile strictSettings = .error (.undeclaredDataset "land") := by
  refine ⟨rfl, ((undeclared_dataset_iff rfl).1 "land").2 ?_⟩
  have hbases : mapsApart.view.bases = [⟨none, none, none, none⟩] ++
      ⟨none, some ⟨.name "land", none⟩, none, none⟩ :: [⟨none, none, none, none⟩] := rfl
  refine ⟨_, _, _, _, hbases, ?_, rfl, by decide +kernel, rfl, rfl⟩
  intro c hc e he
  rw [List.mem_singleton.1 hc] at he
  cases he

/-- Points over a reference, with a format of many nested lists. -/
def deepReference : TopLevelSpec :=
  ⟨.unit ⟨none, some ⟨.name "cars", some ⟨[("a", nestedLists 300)]⟩⟩, none, none⟩
    ⟨⟨"point", .empty⟩, .empty, none⟩, .empty, .plain⟩

theorem accepted_deepReference : deepReference.Accepted := by
  refine ⟨.obj [("mark", .str "point"), ("data", .obj [("name", .str "cars"),
    ("format", .obj [("a", nestedLists 300)])])], ?_, rfl⟩
  simp [Json.distinctKeys, Json.distinctKeysFields, distinctKeys_nestedLists]

/-- The one view refers to a dataset that is not declared, yet a strict compile names none. -/
theorem compile_deepReference : deepReference.Accepted ∧ strictSettings.isStrict = true ∧
    (∃ b ∈ deepReference.view.bases, ∃ d, b.data = some d ∧ d.name? = some "cars") ∧
    deepReference.datasets.contains "cars" = false ∧
    ∀ n, deepReference.compile strictSettings ≠ .error (.undeclaredDataset n) := by
  refine ⟨accepted_deepReference, rfl, ⟨_, List.mem_singleton_self _, _, rfl, rfl⟩, rfl, ?_⟩
  have herror : deepReference.compile strictSettings = .error .tooDeep :=
    (map_eq_error_iff fun _ => ()).1 (by decide +kernel)
  intro n hn
  cases hn.symm.trans herror

end TopLevelSpec

end ChartLowering
