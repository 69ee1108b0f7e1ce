import ChartLowering.Settings.Source

/-
  Which layer a setting comes from.

  Every field of the settings is the valid value of the environment, else the valid value of the
  layer that was selected from the files, else its default, and does not depend on the other fields
  (`load_precedence`). A layer may hold values of any kind, dates, lists and tables too, and what a
  field cannot use leaves it alone. There are two exceptions:

  * a whole number that is out of range for a size ends the loading, wherever else the size is set;
  * a text of the environment that spells no decision counts as a no, so the file's yes is lost
    behind it.
-/

namespace ChartLowering

namespace Settings

/-- A field of the settings. -/
inductive Field where
  | projectionType
  | width
  | height
  | schemaUrl
  | strictDatasets
deriving Repr, DecidableEq

/-- The value of a field. -/
def get (s : Settings) : Field → Json
  | .projectionType => s.defaultProjectionType
  | .width => s.continuousWidth
  | .height => s.continuousHeight
  | .schemaUrl => s.schemaUrl
  | .strictDatasets => s.strictDatasets

namespace Field

/-- The name of a field in a table. -/
def name : Field → String
  | .projectionType => "default_projection_type"
  | .width => "continuous_width"
  | .height => "continuous_height"
  | .schemaUrl => "schema_url"
  | .strictDatasets => "strict_datasets"

/-- The name of a field in the environment. -/
def variableName : Field → String
  | .projectionType => "CHARTC_DEFAULT_PROJECTION_TYPE"
  | .width => "CHARTC_CONTINUOUS_WIDTH"
  | .height => "CHARTC_CONTINUOUS_HEIGHT"
  | .schemaUrl => "CHARTC_SCHEMA_URL"
  | .strictDatasets => "CHARTC_STRICT_DATASETS"

end Field

/-! ## Valid values -/

/-- The spellings of no. -/
def noWords : List String := ["0", "false", "f", "no", "n", "off"]

/-- The decision that a text spells, in any case and with blanks around it. -/
def spelled? (s : String) : Option Bool :=
  let word := Text.toLower (Text.trim s)
  if word ∈ yesWords then some true else if word ∈ noWords then some false else none

/-- A truth value, a number or a spelling as a decision. -/
def validDecision? : Given → Option Bool
  | .truth b => some b
  | .number n => some (!n.isZero)
  | .text s => spelled? s
  | .other => none

/-- The number above zero that a value is or spells. A whole number out of range is none. -/
def validSize? (v : Given) : Option Binary64 :=
  ((numberOf? v).toOption.join).filter Binary64.isPositive

/-- A text that is not blank, without the blanks around it. -/
def validName? : Given → Option String
  | .text s => if Text.trim s = "" then none else some (Text.trim s)
  | _ => none

/-- What a field is set to by a value that is valid for it. -/
def Field.valid? : Field → Given → Option Json
  | .projectionType, v => (validName? v).map .str
  | .width, v | .height, v => (validSize? v).map .float
  | .schemaUrl, v => schemaUrlOf? v
  | .strictDatasets, v => (validDecision? v).map .bool

/-- The variable of a field, if it is set and not empty. -/
def environmentValue? (environment : OrderedMap String String) (f : Field) : Option Given :=
  ((environment.get? f.variableName).filter fun v => !v.isEmpty).map .text

/-- What a field is set to by the environment over a layer over the defaults. -/
def preferred (environment : OrderedMap String String) (layer : Layer) (f : Field) : Json :=
  (((environmentValue? environment f).bind f.valid?).or
    ((layer.get? f.name).bind f.valid?)).getD (standard.get f)

/-- Whether a value is a whole number that no double-precision number is near to. -/
def isOutOfRange : Given → Bool
  | .number (.int n) => (Binary64.ofInt? n).isNone
  | _ => false

/-- Whether a layer has a whole number out of range for a size. -/
def HasOutOfRange (layer : Layer) : Prop :=
  ∃ f ∈ [Field.width, Field.height], ∃ v ∈ layer.get? f.name, isOutOfRange v = true
deriving Decidable

/-- Whether the environment is set to no spelling of a decision, where a layer says yes. -/
def MisspeltOver (environment : OrderedMap String String) (layer : Layer) : Prop :=
  (∃ v ∈ environmentValue? environment .strictDatasets, Field.strictDatasets.valid? v = none) ∧
  (layer.get? Field.strictDatasets.name).bind Field.strictDatasets.valid? = some (.bool true)

/-! ## One layer -/

theorem projectionTypeOf?_eq (v : Given) : projectionTypeOf? v = (validName? v).map .str := by
  cases v with
  | text s =>
    unfold projectionTypeOf? validName?
    simp only [String.isEmpty_iff]
    split <;> rfl
  | number | truth | other => rfl

/-- Whatever is no valid decision is a no. -/
theorem decisionOf_eq (v : Given) : decisionOf v = (validDecision? v).getD false := by
  cases v with
  | text s =>
    unfold decisionOf validDecision? spelled?
    simp only [List.contains_eq_mem]
    split
    · rename_i hyes
      rw [decide_eq_true hyes]
      rfl
    · rename_i hyes
      rw [decide_eq_false hyes]
      split <;> rfl
  | number | truth | other => rfl

theorem sizeOf?_eq (v : Given) : sizeOf? v =
    if isOutOfRange v = true then .error .outOfRange else .ok ((validSize? v).map .float) := by
  cases v with
  | number n =>
    cases n with
    | int n =>
      cases hn : Binary64.ofInt? n with
      | none => simp [sizeOf?, numberOf?, floatOf, isOutOfRange, Number.toBinary64?, hn, Except.map]
      | some x => simp [sizeOf?, numberOf?, floatOf, isOutOfRange, validSize?, Number.toBinary64?,
          hn, Except.map, Except.toOption]
    | float x => rfl
  | truth b =>
    -- the truth values are the numbers 1 and 0, which are in range
    have hb : (Binary64.ofInt? (if b then 1 else 0)).isSome = true := by
      cases b <;> decide +kernel
    obtain ⟨x, hx⟩ := Option.isSome_iff_exists.1 hb
    simp [sizeOf?, numberOf?, floatOf, isOutOfRange, validSize?, Number.toBinary64?, hx,
      Except.map, Except.toOption]
  | text s => simp [sizeOf?, numberOf?, isOutOfRange, validSize?, Except.map, Except.toOption]
  | other => rfl

theorem sizeField_eq (l : Layer) (k : String) (current : Json) : sizeField l k current =
    if ∃ v ∈ l.get? k, isOutOfRange v = true then .error .outOfRange
    else .ok (((l.get? k).bind fun v => (validSize? v).map .float).getD current) := by
  unfold sizeField
  cases hl : l.get? k with
  | none => simp
  | some v =>
    simp only [sizeOf?_eq, Option.mem_def, Option.some.injEq, exists_eq_left', Option.bind_some]
    split <;> rfl

theorem hasOutOfRange_iff {layer : Layer} : HasOutOfRange layer ↔
    (∃ v ∈ layer.get? "continuous_width", isOutOfRange v = true) ∨
      ∃ v ∈ layer.get? "continuous_height", isOutOfRange v = true := by
  simp only [HasOutOfRange, List.mem_cons, List.not_mem_nil, or_false, exists_eq_or_imp,
    exists_eq_left, Field.name]

/-- A layer fails by the sizes alone. -/
theorem apply_eq_error_iff (s : Settings) (layer : Layer) :
    s.apply layer = .error .outOfRange ↔ HasOutOfRange layer := by
  rw [hasOutOfRange_iff]
  simp only [apply, sizeField_eq]
  by_cases hw : ∃ v ∈ layer.get? "continuous_width", isOutOfRange v = true
  · rw [if_pos hw]
    exact ⟨fun _ => .inl hw, fun _ => rfl⟩
  · rw [if_neg hw]
    by_cases hh : ∃ v ∈ layer.get? "continuous_height", isOutOfRange v = true
    · rw [if_pos hh]
      exact ⟨fun _ => .inr hh, fun _ => rfl⟩
    · rw [if_neg hh]
      refine iff_of_false (fun h => ?_) (not_or.2 ⟨hw, hh⟩)
      cases h

/-- The fields of a layer that is in range. -/
theorem apply_of_inRange (s : Settings) {layer : Layer} (h : ¬ HasOutOfRange layer) :
    ∃ r, s.apply layer = .ok r ∧
      (∀ f ≠ Field.strictDatasets,
        r.get f = ((layer.get? f.name).bind f.valid?).getD (s.get f)) ∧
      r.strictDatasets = ((layer.get? Field.strictDatasets.name).map fun v =>
        .bool (decisionOf v)).getD s.strictDatasets := by
  rw [hasOutOfRange_iff, not_or] at h
  simp only [apply, sizeField_eq, if_neg h.1, if_neg h.2]
  refine ⟨_, rfl, fun f hf => ?_, rfl⟩
  cases f with
  | projectionType =>
    simp only [get, Field.name, funext projectionTypeOf?_eq]
    rfl
  | width | height | schemaUrl => rfl
  | strictDatasets => exact absurd rfl hf

/-! ## The layer of the environment -/

theorem Field.prefix_toUpper (f : Field) : variablePrefix ++ f.name.toUpper = f.variableName := by
  cases f <;> decide +kernel

theorem Field.name_mem (f : Field) : f.name ∈ fieldNames := by
  cases f <;> decide

theorem get?_environmentLayer (environment : OrderedMap String String) (f : Field) :
    (environmentLayer environment variablePrefix).get? f.name = environmentValue? environment f := by
  let g : String → Option Given := fun k =>
    ((environment.get? (variablePrefix ++ k.toUpper)).filter fun v => !v.isEmpty).map .text
  have hg : environmentLayer environment variablePrefix =
      ⟨fieldNames.filterMap fun k => (g k).map fun v => (k, v)⟩ := by
    unfold environmentLayer
    congr 2
    funext k
    cases hk : environment.get? (variablePrefix ++ k.toUpper) with
    | none => simp [g, hk]
    | some v => by_cases hv : v = "" <;> simp [g, hk, hv, Option.filter]
  rw [hg]
  refine (OrderedMap.find?_filterMap g f.name_mem).trans ?_
  simp only [g, f.prefix_toUpper]
  rfl

/-- What the environment sets is a text, and so not out of range. -/
theorem inRange_environmentLayer (environment : OrderedMap String String) :
    ¬ HasOutOfRange (environmentLayer environment variablePrefix) := by
  rintro ⟨f, -, v, hv, hout⟩
  rw [get?_environmentLayer] at hv
  obtain ⟨s, -, rfl⟩ := Option.map_eq_some_iff.1 hv
  exact Bool.false_ne_true hout

/-! ## The layers together -/

theorem load_eq (environment : OrderedMap String String) {w : Workspace} {path : Option String}
    {offer : Toml.Value} (hselected : selectTable w nothing (candidates path) = .ok offer) :
    load environment w path = standard.apply (.ofToml offer) >>= fun s =>
      s.apply (environmentLayer environment variablePrefix) := by
  unfold load fromFiles
  rw [hselected]
  rfl

/-- A decision under one of the environment. -/
theorem decision_layers (e t : Option Given) :
    ((e.map fun v => Json.bool (decisionOf v)).getD
      ((t.map fun v => Json.bool (decisionOf v)).getD (.bool false)) =
      (((e.bind Field.strictDatasets.valid?).or (t.bind Field.strictDatasets.valid?)).getD
        (.bool false)) ↔
    ¬ ((∃ v ∈ e, Field.strictDatasets.valid? v = none) ∧
      t.bind Field.strictDatasets.valid? = some (.bool true))) := by
  -- a file's value that is no decision gives the default as well
  have ht : (t.map fun v => Json.bool (decisionOf v)).getD (.bool false) =
      (t.bind Field.strictDatasets.valid?).getD (.bool false) := by
    cases t with
    | none => rfl
    | some v =>
      simp only [Option.map_some, Option.getD_some, Option.bind_some, Field.valid?, decisionOf_eq]
      cases validDecision? v <;> rfl
  cases e with
  | none => simp [ht]
  | some v =>
    cases hv : validDecision? v with
    | some b => simp [Field.valid?, decisionOf_eq, hv]
    | none =>
      simp only [Option.map_some, Option.getD_some, Option.bind_some, Field.valid?, decisionOf_eq,
        hv, Option.map_none, Option.none_or]
      cases t with
      | none => simp
      | some u => cases hu : validDecision? u with
        | none => simp [Field.valid?, hu]
        | some b => cases b <;> simp [Field.valid?, hv, hu]

/-- The environment goes before the file and the file before the defaults, field by field, whatever
kinds of values the file has for them. Loading fails exactly if the file has a size out of range.
The one field that can differ is the decision on datasets, which a misspelt variable turns to no. -/
theorem load_precedence (environment : OrderedMap String String) {w : Workspace}
    {path : Option String} {offer : Toml.Value}
    (hselected : selectTable w nothing (candidates path) = .ok offer) :
    (load environment w path = .error .outOfRange ↔ HasOutOfRange (.ofToml offer)) ∧
    (¬ HasOutOfRange (.ofToml offer) → ∃ s, load environment w path = .ok s ∧
      (∀ f, s.get f = preferred environment (.ofToml offer) f ↔
        ¬ (f = .strictDatasets ∧ MisspeltOver environment (.ofToml offer))) ∧
      (MisspeltOver environment (.ofToml offer) → s.get .strictDatasets = .bool false)) := by
  rw [load_eq environment hselected]
  generalize Layer.ofToml offer = layer
  by_cases hout : HasOutOfRange layer
  · rw [(apply_eq_error_iff standard layer).2 hout]
    exact ⟨⟨fun _ => hout, fun _ => rfl⟩, fun hin => absurd hout hin⟩
  · obtain ⟨r, hr, hfields, hstrict⟩ := apply_of_inRange standard hout
    obtain ⟨s, hs, hfields', hstrict'⟩ := apply_of_inRange r (inRange_environmentLayer environment)
    have hload : (standard.apply layer >>= fun s =>
        s.apply (environmentLayer environment variablePrefix)) = .ok s := by
      rw [hr]
      exact hs
    rw [get?_environmentLayer, hstrict] at hstrict'
    have hdecision : s.get .strictDatasets = preferred environment layer .strictDatasets ↔
        ¬ MisspeltOver environment layer := by
      rw [show s.get .strictDatasets = _ from hstrict']
      exact decision_layers _ _
    rw [hload]
    refine ⟨⟨nofun, fun h => absurd h hout⟩, fun _ => ⟨s, rfl, fun f => ?_, fun h => ?_⟩⟩
    · by_cases hf : f = .strictDatasets
      · subst hf
        simpa only [true_and] using hdecision
      · simp only [hf, false_and, not_false_iff, iff_true]
        rw [hfields' f hf, hfields f hf, get?_environmentLayer]
        unfold preferred
        rw [Option.getD_or]
    · obtain ⟨⟨v, hv, hnone⟩, -⟩ := h
      rw [hv, Option.map_some, Option.getD_some, decisionOf_eq,
        Option.map_eq_none_iff.1 hnone] at hstrict'
      exact hstrict'

/-! ## Settings of one file -/

/-- A workspace with a configuration of its own. -/
def workspaceOf (configuration : String) : Workspace where
  files := ⟨[("chartc.toml", configuration)]⟩
  directories := []

theorem pathNames_ownFile : pathNames "chartc.toml" = ["chartc.toml"] := by decide +kernel

theorem text?_workspaceOf (c : String) : (workspaceOf c).text? "chartc.toml" = some c := by
  have habsolute : ¬ "chartc.toml".toList.head? = some '/' := by decide +kernel
  unfold Workspace.text?
  rw [if_neg habsolute, pathNames_ownFile]
  simp [Workspace.follow, Workspace.isDirectory, workspaceOf, pathNames_ownFile]

/-- A file's offer is selected if it has any fields. -/
theorem exists_selected {c : String} {layer : Layer}
    (hread : (Toml.read? c).map (fun data => Layer.ofToml (ownTable data)) = some layer)
    (hlayer : layer.entries ≠ []) :
    ∃ offer, selectTable (workspaceOf c) nothing (candidates none) = .ok offer ∧
      Layer.ofToml offer = layer := by
  obtain ⟨data, hdata, rfl⟩ := Option.map_eq_some_iff.1 hread
  have hfile : fileTable? (workspaceOf c) "chartc.toml" = .ok (some (ownTable data)) := by
    unfold fileTable?
    rw [text?_workspaceOf, Option.bind_some, hdata, pathNames_ownFile]
    rfl
  have hsubstantial : (ownTable data).isSubstantial = true := by
    revert hlayer
    cases ownTable data with
    | table fields => cases fields <;> simp [Toml.Value.isSubstantial, Layer.ofToml,
        OrderedMap.mapValues]
    | bool | num | str | moment | arr => exact fun h => absurd rfl h
  refine ⟨ownTable data, ?_, rfl⟩
  unfold candidates selectTable
  rw [hfile]
  exact if_pos hsubstantial

/-- A configuration of two sizes that are none, an address over two lines and a decision. -/
def wideConfiguration : String :=
  "continuous_width = 1979-05-27 07:32:00Z\ncontinuous_height = -5\n" ++
    "schema_url = \"\"\"\nhttps://vega.github.io/\\\n  schema.json\"\"\"\nstrict_datasets = 'Yes'"

def wideLayer : Layer :=
  ⟨[("continuous_width", .other), ("continuous_height", .number (.int (-5))),
    ("schema_url", .text "https://vega.github.io/schema.json"), ("strict_datasets", .text "Yes")]⟩

/-- An environment with a width. -/
def wideEnvironment : OrderedMap String String := ⟨[("CHARTC_CONTINUOUS_WIDTH", "640")]⟩

/-- Every field has the value that goes before the others. -/
theorem load_precedence_wide :
    ∃ offer, selectTable (workspaceOf wideConfiguration) nothing (candidates none) = .ok offer ∧
      Layer.ofToml offer = wideLayer ∧
      ∃ s, load wideEnvironment (workspaceOf wideConfiguration) none = .ok s ∧
        ∀ f, s.get f = preferred wideEnvironment wideLayer f := by
  have hread : (Toml.read? wideConfiguration).map (fun data => Layer.ofToml (ownTable data)) =
      some wideLayer := by decide +kernel
  obtain ⟨offer, hselected, hlayer⟩ := exists_selected hread (by decide)
  have hload := load_precedence wideEnvironment hselected
  rw [hlayer] at hload
  obtain ⟨s, hs, hfields, -⟩ := hload.2 (by decide +kernel)
  refine ⟨offer, hselected, hlayer, s, hs, fun f => (hfields f).2 ?_⟩
  rintro ⟨-, ⟨v, hv, -⟩, -⟩
  have hunset : environmentValue? wideEnvironment .strictDatasets = none := by decide +kernel
  exact nomatch hunset.symm.trans hv

def strictLayer : Layer := ⟨[("strict_datasets", .truth true)]⟩

/-- An environment in which the decision on datasets is misspelt. -/
def misspeltEnvironment : OrderedMap String String := ⟨[("CHARTC_STRICT_DATASETS", "maybe")]⟩

/-- A configuration with a width of 310 digits. -/
def hugeConfiguration : String :=
  String.ofList ("continuous_width = 1".toList ++ List.replicate 309 '0')

def hugeLayer : Layer := ⟨[("continuous_width", .number (.int (Nat.pow 10 309)))]⟩

/-- A variable that spells no decision turns the file's yes to no, and a size that is out of range
ends the loading. In both cases a value that is not valid has not left the value below it alone. -/
theorem load_strays :
    (∃ offer, selectTable (workspaceOf "strict_datasets = true") nothing (candidates none) =
        .ok offer ∧ Layer.ofToml offer = strictLayer ∧
      preferred misspeltEnvironment strictLayer .strictDatasets = .bool true ∧
      (load misspeltEnvironment (workspaceOf "strict_datasets = true") none).toOption.map
        (·.get .strictDatasets) = some (.bool false)) ∧
    ∃ offer, selectTable (workspaceOf hugeConfiguration) nothing (candidates none) = .ok offer ∧
      Layer.ofToml offer = hugeLayer ∧
      preferred .empty hugeLayer .width = .int 300 ∧
      load .empty (workspaceOf hugeConfiguration) none = .error .outOfRange := by
  have hstrict : (Toml.read? "strict_datasets = true").map
      (fun data => Layer.ofToml (ownTable data)) = some strictLayer := by decide +kernel
  have hhuge : (Toml.read? hugeConfiguration).map (fun data => Layer.ofToml (ownTable data)) =
      some hugeLayer := by
    unfold Toml.read? hugeConfiguration
    rw [String.toList_ofList]
    decide +kernel
  obtain ⟨offer, hselected, hlayer⟩ := exists_selected hstrict (by decide)
  obtain ⟨offer', hselected', hlayer'⟩ := exists_selected hhuge (by decide)
  refine ⟨⟨offer, hselected, hlayer, by decide +kernel, by decide +kernel⟩,
    offer', hselected', hlayer', by decide +kernel, ?_⟩
  rw [load_eq .empty hselected', hlayer', (apply_eq_error_iff _ _).2 (by decide +kernel)]
  rfl

end Settings

end ChartLowering
