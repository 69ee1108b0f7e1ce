import ChartLowering.Proofs.Dataset.Backing
import ChartLowering.Proofs.Dataset.Emission

/-
  What a fit lists, and what it consults.

  A source of a fit can be used if a registered pipeline extracts its signal, or if its output is
  backed (`Uses`). The sources are gone through one after the other. Each of them adds its expression
  to the end of the list unless it is there already (`fitExpressions_concat`), so the list has every
  expression once and in the order of first uses, and it counts for the dataset of its output whether
  or not it adds anything (`fit_sources_listed`). Two outputs of one dataset are one expression and
  two consultations.
-/

namespace ChartLowering

namespace Registry

/-- What a registry can be, and the pipelines that were registered in it, also under names that were
registered again. -/
inductive History : List Pipeline → Registry → Prop where
  | start (declared : OrderedMap String Json) (strict : Bool) : History [] (start declared strict)
  | sourceFor {pipelines : List Pipeline} {r q : Registry} {d : DataSpec} {s : Source} :
      History pipelines r → r.sourceFor d = .ok (s, q) → History pipelines q
  | note {pipelines : List Pipeline} {r : Registry} (names : List String) :
      History pipelines r → History pipelines (r.note names)
  | register {pipelines : List Pipeline} {r : Registry} (name : String) (p : Pipeline) :
      History pipelines r → History (pipelines ++ [p]) (r.register name p)
  | link {pipelines : List Pipeline} {r : Registry} :
      History pipelines r → History pipelines r.link

/-- Whether a source can be used under an expression: a signal that a registered pipeline extracts
under its name, and an output that is backed under the rows of its dataset. -/
inductive Uses (pipelines : List Pipeline) (r : Registry) : FitSource → String → Prop where
  | signal {p : Pipeline} {name : String} (notes : Fields) : p ∈ pipelines → name ∈ p.signals →
      Uses pipelines r (.signal name notes) name
  | output {name : String} : r.backs name = true →
      Uses pipelines r (.output name) ("data('" ++ r.concreteName name ++ "')")

/-- Whether the first use of `a` is before all uses of `b`: some of the first sources are used under
`a` and none of them under `b`. -/
def UsedBefore (uses : FitSource → String → Prop) (sources : List FitSource) (a b : String) : Prop :=
  ∃ front back, sources = front ++ back ∧ (∃ s ∈ front, uses s a) ∧ ∀ s ∈ front, ¬ uses s b

/-- Whether a source is an output that is linked to a dataset. -/
def linksTo (r : Registry) (dataset : String) : FitSource → Bool
  | .output name => r.backs name && r.concreteName name == dataset
  | _ => false

variable {pipelines : List Pipeline} {r : Registry} {sources : List FitSource} {s : FitSource}
  {e : String}

/-! ## Sources that can be used -/

theorem History.signals (h : History pipelines r) : r.signals = pipelines.flatMap Pipeline.signals := by
  induction h with
  | start declared strict => rfl
  | sourceFor _ hs ih =>
    rcases sourceFor_cases hs with ⟨-, rfl⟩ | ⟨-, -, rfl⟩
    · exact ih
    · exact ih
  | note names _ ih => exact ih
  | register name p _ ih =>
    rw [List.flatMap_append, ← ih, List.flatMap_singleton]
    rfl
  | @link pipelines r _ ih =>
    obtain ⟨concrete, derived, hlink⟩ := link_frame r
    rw [hlink]
    exact ih

theorem History.produces_iff (h : History pipelines r) (name : String) :
    r.produces name = true ↔ ∃ p ∈ pipelines, name ∈ p.signals := by
  rw [produces, List.contains_iff_mem, h.signals, List.mem_flatMap]

theorem get?_concrete_eq_some_iff {name dataset : String} :
    r.concrete.get? name = some dataset ↔ r.backs name = true ∧ r.concreteName name = dataset := by
  unfold backs concreteName OrderedMap.contains
  cases r.concrete.get? name with
  | none => simp
  | some _ => simp

/-- The sources that can be used are those that have an expression. -/
theorem History.uses_iff (h : History pipelines r) :
    Uses pipelines r s e ↔ r.fitExpression? s = some e := by
  constructor
  · rintro (⟨notes, hp, hname⟩ | hbacks)
    · exact if_pos ((h.produces_iff _).2 ⟨_, hp, hname⟩)
    · exact congrArg (Option.map rowsExpression) (get?_concrete_eq_some_iff.2 ⟨hbacks, rfl⟩)
  · intro he
    cases s with
    | signal name notes =>
      obtain ⟨hproduced, hname⟩ := Option.ite_none_right_eq_some.1 he
      obtain rfl := Option.some.inj hname
      obtain ⟨p, hp, hname⟩ := (h.produces_iff _).1 hproduced
      exact .signal notes hp hname
    | output name =>
      obtain ⟨dataset, hdataset, rfl⟩ := Option.map_eq_some_iff.1 he
      obtain ⟨hbacks, rfl⟩ := get?_concrete_eq_some_iff.1 hdataset
      exact .output hbacks
    | unusable value => cases he

theorem History.mem_fitExpressions_iff (h : History pipelines r) :
    e ∈ r.fitExpressions sources ↔ ∃ s ∈ sources, Uses pipelines r s e := by
  simp only [mem_fitExpressions, h.uses_iff]

/-! ## One source after the other -/

theorem UsedBefore.ne {uses : FitSource → String → Prop} {a b : String}
    (h : UsedBefore uses sources a b) : a ≠ b := by
  rintro rfl
  obtain ⟨front, back, -, ⟨s, hs, hused⟩, hunused⟩ := h
  exact hunused s hs hused

theorem UsedBefore.concat {uses : FitSource → String → Prop} {a b : String}
    (h : UsedBefore uses sources a b) (s : FitSource) : UsedBefore uses (sources ++ [s]) a b := by
  obtain ⟨front, back, rfl, hfront⟩ := h
  exact ⟨front, back ++ [s], List.append_assoc front back [s], hfront⟩

/-- The expressions are in the order of their first uses. -/
theorem History.pairwise_fitExpressions (h : History pipelines r) (sources : List FitSource) :
    (r.fitExpressions sources).Pairwise (UsedBefore (Uses pipelines r) sources) := by
  induction sources using List.reverseRecOn with
  | nil => exact .nil
  | append_singleton sources s ih =>
    have hkept : (r.fitExpressions sources).Pairwise
        (UsedBefore (Uses pipelines r) (sources ++ [s])) := ih.imp fun hab => hab.concat s
    rw [fitExpressions_concat]
    split
    · exact hkept
    · split
      · exact hkept
      · rename_i e _ he
        refine List.pairwise_append.2 ⟨hkept, List.pairwise_singleton _ e, fun a ha b hb => ?_⟩
        obtain rfl := List.mem_singleton.1 hb
        -- the sources before this one are used under `a`, and none of them under the new expression
        refine ⟨sources, [s], rfl, h.mem_fitExpressions_iff.1 ha, fun t ht hused => ?_⟩
        exact he (h.mem_fitExpressions_iff.2 ⟨t, ht, hused⟩)

/-- A dataset is consulted by each of its outputs. -/
theorem count_fitConsultations (r : Registry) (sources : List FitSource) (dataset : String) :
    (r.fitConsultations sources).count dataset = sources.countP (r.linksTo dataset) := by
  unfold fitConsultations
  rw [List.count, List.countP_filterMap]
  refine List.countP_congr fun s _ => ?_
  cases s with
  | signal name notes => simp [linksTo]
  | unusable value => simp [linksTo]
  | output name =>
    rw [linksTo, Bool.and_eq_true, beq_iff_eq, ← get?_concrete_eq_some_iff]
    cases hname : r.concrete.get? name <;> simp [hname]

/-- A fit lists each expression under which one of its sources can be used, once and in the order of
first uses; and every dataset is consulted as often as the sources hold outputs that are linked to it,
and no other dataset is. -/
theorem fit_sources_listed (h : History pipelines r) (sources : List FitSource) :
    (r.fitExpressions sources).Nodup ∧
    (∀ e, e ∈ r.fitExpressions sources ↔ ∃ s ∈ sources, Uses pipelines r s e) ∧
    (r.fitExpressions sources).Pairwise (UsedBefore (Uses pipelines r) sources) ∧
    ∀ dataset, (r.note (r.fitConsultations sources)).count dataset =
      r.count dataset + sources.countP (r.linksTo dataset) := by
  have hordered := h.pairwise_fitExpressions sources
  refine ⟨hordered.imp UsedBefore.ne, fun e => h.mem_fitExpressions_iff, hordered, fun dataset => ?_⟩
  rw [count_note, count_fitConsultations, Nat.add_comm]

/-- The rows of a root dataset as they are. -/
def rawRows : Pipeline := ⟨some ⟨"source_0", .null⟩, []⟩

/-- The same rows with a shape extracted from them. -/
def shapedRows : Pipeline :=
  ⟨some ⟨"source_0", .null⟩, [.geojson none (some "geo") "geojson_0"]⟩

/-- Two outputs of the rows as they are and one of the rows with a shape. -/
def rowOutputs : Registry :=
  (((start .empty false).register "a_main" rawRows).register "b_main" rawRows).register
    "c_main" shapedRows

/-- A signal twice, the two outputs, and an output and a signal that nothing stands behind. -/
def rowSources : List FitSource :=
  [.signal "geojson_0" .empty, .output "a_main", .output "ghost_main", .signal "geojson_1" .empty,
    .output "b_main", .signal "geojson_0" .empty]

/-- The rows are listed once, after the signal, and consulted by each of the two outputs. -/
theorem fit_sources_listed_rowOutputs :
    History [rawRows, rawRows, shapedRows] rowOutputs.link ∧
      rowOutputs.link.fitExpressions rowSources = ["geojson_0", "data('source_0')"] ∧
      UsedBefore (Uses [rawRows, rawRows, shapedRows] rowOutputs.link) rowSources "geojson_0"
        "data('source_0')" ∧
      (rowOutputs.link.note (rowOutputs.link.fitConsultations rowSources)).count "source_0" = 2 := by
  have hhistory : History [rawRows, rawRows, shapedRows] rowOutputs.link :=
    ((((History.start .empty false).register "a_main" rawRows).register "b_main"
      rawRows).register "c_main" shapedRows).link
  obtain ⟨-, -, hordered, hcount⟩ := fit_sources_listed hhistory rowSources
  have hlisted : rowOutputs.link.fitExpressions rowSources = ["geojson_0", "data('source_0')"] := by
    decide +kernel
  rw [hlisted] at hordered
  refine ⟨hhistory, hlisted, List.rel_of_pairwise_cons hordered (List.mem_singleton_self _), ?_⟩
  exact (hcount "source_0").trans (by decide +kernel)

end Registry

end ChartLowering
