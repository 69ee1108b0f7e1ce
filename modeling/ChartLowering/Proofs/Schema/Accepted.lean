import ChartLowering.Schema.TopLevel

/-
  Accepted specifications.

  A specification is accepted if it was read from a value whose objects have distinct keys, as the
  objects of every value have that was read from a text or made by a program. What such a
  specification configures has distinct keys too (`Accepted.nodup_keys_defaults`).
-/

namespace ChartLowering

namespace Json

mutual

/-- Whether all objects in a value have distinct keys. -/
def distinctKeys : Json → Bool
  | .arr items => distinctKeysAll items
  | .table rows => distinctKeysAll rows
  | .obj fields => decide (fields.map Prod.fst).Nodup && distinctKeysFields fields
  | _ => true

def distinctKeysAll : List Json → Bool
  | [] => true
  | j :: rest => distinctKeys j && distinctKeysAll rest

def distinctKeysFields : List (String × Json) → Bool
  | [] => true
  | (_, j) :: rest => distinctKeys j && distinctKeysFields rest

end

theorem distinctKeys_obj {fs : List (String × Json)} (h : (Json.obj fs).distinctKeys = true) :
    (fs.map Prod.fst).Nodup ∧ distinctKeysFields fs = true := by
  rwa [distinctKeys, Bool.and_eq_true, decide_eq_true_eq] at h

theorem distinctKeys_of_find? {fs : List (String × Json)} (h : distinctKeysFields fs = true)
    {k : String} {j : Json} (hj : OrderedMap.find? k fs = some j) : j.distinctKeys = true := by
  induction fs with
  | nil => cases hj
  | cons e rest ih =>
    obtain ⟨key, v⟩ := e
    rw [distinctKeysFields, Bool.and_eq_true] at h
    by_cases hk : k = key
    · obtain rfl : v = j := by simpa [OrderedMap.find?, hk] using hj
      exact h.1
    · exact ih h.2 (by simpa [OrderedMap.find?, hk] using hj)

/-! What has distinct keys is made of such values, and stays so. -/

section Parts

variable {fs : Fields}

theorem distinctKeysFields_iff (l : List (String × Json)) :
    distinctKeysFields l = true ↔ ∀ j ∈ l.map Prod.snd, j.distinctKeys = true := by
  induction l with
  | nil => simp [distinctKeysFields]
  | cons e rest ih =>
    rw [distinctKeysFields, Bool.and_eq_true, ih, List.map_cons, List.forall_mem_cons]

theorem distinctKeys_ofFields : (ofFields fs).distinctKeys = true ↔
    fs.keys.Nodup ∧ ∀ j ∈ fs.values, j.distinctKeys = true := by
  rw [ofFields, distinctKeys, Bool.and_eq_true, decide_eq_true_eq, distinctKeysFields_iff]
  rfl

theorem distinctKeys_of_get? (h : (ofFields fs).distinctKeys = true) {k : String} {j : Json}
    (hj : fs.get? k = some j) : j.distinctKeys = true :=
  distinctKeys_of_find? (distinctKeys_obj h).2 hj

theorem distinctKeys_insert (h : (ofFields fs).distinctKeys = true) (k : String) {j : Json}
    (hj : j.distinctKeys = true) : (ofFields (fs.insert k j)).distinctKeys = true := by
  obtain ⟨hkeys, hvalues⟩ := distinctKeys_ofFields.1 h
  refine distinctKeys_ofFields.2 ⟨OrderedMap.nodup_keys_insert hkeys k j, fun v hv => ?_⟩
  rcases OrderedMap.mem_values_insert hv with rfl | hv
  · exact hj
  · exact hvalues v hv

theorem distinctKeys_filterKeys (h : (ofFields fs).distinctKeys = true) (p : String → Bool) :
    (ofFields (fs.filterKeys p)).distinctKeys = true := by
  obtain ⟨hkeys, hvalues⟩ := distinctKeys_ofFields.1 h
  refine distinctKeys_ofFields.2 ⟨OrderedMap.nodup_keys_filterKeys hkeys p, fun v hv => ?_⟩
  obtain ⟨e, he, rfl⟩ := List.mem_map.1 hv
  exact hvalues e.2 (List.mem_map_of_mem (List.mem_filter.1 he).1)

theorem distinctKeys_adjust (h : (ofFields fs).distinctKeys = true) (k : String)
    {f : Json → Json} (hf : ∀ j, j.distinctKeys = true → (f j).distinctKeys = true) :
    (ofFields (fs.adjust k f)).distinctKeys = true := by
  obtain ⟨hkeys, hvalues⟩ := distinctKeys_ofFields.1 h
  refine distinctKeys_ofFields.2 ⟨by rwa [OrderedMap.keys_adjust], fun v hv => ?_⟩
  obtain ⟨_, hmem, rfl⟩ := List.mem_map.1 hv
  obtain ⟨e, he, rfl⟩ := List.mem_map.1 hmem
  have hvalue := hvalues e.2 (List.mem_map_of_mem he)
  show (if e.1 = k then f e.2 else e.2).distinctKeys = true
  split
  · exact hf _ hvalue
  · exact hvalue

end Parts

end Json

namespace TopLevelSpec

/-- Whether a specification is the reading of a value, whose objects have distinct keys. -/
def Accepted (t : TopLevelSpec) : Prop :=
  ∃ j : Json, j.distinctKeys = true ∧ Schema.readTopLevel j = .valid t

end TopLevelSpec

namespace Schema

/-- A field that may be left out has its default, or the reading of its value. -/
theorem optionalField_eq_valid {α : Type} {fs : Fields} {k : String} {dflt a : α}
    {read : Reading α} (h : optionalField fs k dflt read = .valid a) :
    a = dflt ∨ ∃ j, fs.get? k = some j ∧ read j = .valid a := by
  unfold optionalField at h
  rw [Check.underKey_eq_valid_iff] at h
  split at h
  · rename_i j hj
    exact Or.inr ⟨j, hj, h⟩
  · cases h
    exact Or.inl rfl

/-- An object of properties under a key of an object with distinct keys has distinct keys. -/
theorem nodup_keys_optionalObject {fs : Fields} (hfs : Json.distinctKeysFields fs.entries = true)
    {k : String} {m : Fields} (h : optionalField fs k .empty readObject = .valid m) :
    m.keys.Nodup := by
  rcases optionalField_eq_valid h with rfl | ⟨j, hj, hread⟩
  · exact List.nodup_nil
  · have hdistinct := Json.distinctKeys_of_find? hfs hj
    cases j with
    | obj l =>
      obtain rfl := Check.valid.inj hread
      exact (Json.distinctKeys_obj hdistinct).1
    | null | bool | num | str | arr | table => cases hread

theorem nodup_keys_readConfig {j : Json} (hj : j.distinctKeys = true) {c : Config}
    (h : readConfig j = .valid c) (f : Family) : (c.defaults f).keys.Nodup := by
  cases j with
  | obj l =>
    have hl := (Json.distinctKeys_obj hj).2
    change readConfigFields ⟨l⟩ = .valid c at h
    unfold readConfigFields at h
    simp only [Check.seq_eq_valid_iff, Check.map_eq_valid_iff] at h
    obtain ⟨_, view, ⟨_, legend, ⟨_, axis, ⟨_, scale, ⟨projection, hprojection, rfl⟩, hscale, rfl⟩,
      haxis, rfl⟩, hlegend, rfl⟩, -, rfl⟩ := h
    cases f with
    | projection => exact nodup_keys_optionalObject hl hprojection
    | scale => exact nodup_keys_optionalObject hl hscale
    | axis => exact nodup_keys_optionalObject hl haxis
    | legend => exact nodup_keys_optionalObject hl hlegend
  | null | bool | num | str | arr | table => cases h

/-- The configuration stands under its key, wherever the view stands. -/
theorem get?_topLevelFields_config (fs : Fields) :
    (topLevelFields fs).get? "config" = fs.get? "config" := by
  unfold topLevelFields
  split
  · rfl
  · have hfilter := OrderedMap.get?_filterKeys fs (fun k => k == "datasets" || k == "config") "config"
    rw [if_pos (by decide)] at hfilter
    exact hfilter

end Schema

/-- What an accepted specification configures has distinct keys. -/
theorem TopLevelSpec.Accepted.nodup_keys_defaults {t : TopLevelSpec} (h : t.Accepted)
    (f : Family) : (t.config.defaults f).keys.Nodup := by
  obtain ⟨j, hj, hread⟩ := h
  cases j with
  | obj fs =>
    change Schema.readTopLevelFields (Schema.topLevelFields ⟨fs⟩) = .valid t at hread
    unfold Schema.readTopLevelFields at hread
    simp only [Schema.Check.seq_eq_valid_iff, Schema.Check.map_eq_valid_iff] at hread
    obtain ⟨_, _, ⟨_, config, ⟨_, datasets, ⟨view, hview, rfl⟩, hdatasets, rfl⟩, hconfig, rfl⟩, -,
      rfl⟩ := hread
    rcases Schema.optionalField_eq_valid hconfig with rfl | ⟨c, hc, hreadConfig⟩
    · cases f <;> exact List.nodup_nil
    · rw [Schema.get?_topLevelFields_config] at hc
      exact Schema.nodup_keys_readConfig
        (Json.distinctKeys_of_find? (Json.distinctKeys_obj hj).2 hc) hreadConfig f
  | null | bool | num | str | arr | table => cases hread

end ChartLowering
