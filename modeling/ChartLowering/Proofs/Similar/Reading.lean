import ChartLowering.Proofs.Similar.Documents

/-
  Reading values that differ in the order of keys.

  A reading looks fields up by their keys, so what it makes of two values that differ only in the
  order of keys has one sketch. `Respects` says this of the reading of a value, `FieldsRespect` of the
  reading of an object's fields; the rules go with how readings are put together. Only an encoding is
  read in the order of its keys, and only constants of channels are kept as they are.
-/

namespace ChartLowering.Schema

variable {α β : Type} {p q : Place} {R : α → α → Prop} {S : β → β → Prop}

/-- Whether a reading makes related parts of values that differ in the order of keys. -/
def Respects (p : Place) (R : α → α → Prop) (read : Reading α) : Prop :=
  ∀ j j' x x', j.arranged p = j'.arranged p → read j = .valid x → read j' = .valid x' → R x x'

/-- Whether a reading makes related parts of fields that differ in the order of keys. -/
def FieldsRespect (p : Place) (R : α → α → Prop) (read : Fields → Check α) : Prop :=
  ∀ fs fs' x x', fs.arranged p = fs'.arranged p → read fs = .valid x → read fs' = .valid x' → R x x'

/-! ## Fields that differ in order -/

theorem get?_alike {fs fs' : Fields} (h : fs.arranged p = fs'.arranged p) (k : String) :
    (fs.get? k).map (Json.arranged (p.below k)) = (fs'.get? k).map (Json.arranged (p.below k)) :=
  Json.map_arranged_find?_eq (OrderedMap.mk.inj h) k

theorem contains_alike {fs fs' : Fields} (h : fs.arranged p = fs'.arranged p) (k : String) :
    fs.contains k = fs'.contains k := by
  rw [← Fields.contains_arranged p, h, Fields.contains_arranged]

/-- Fields under keys whose values are kept as they are. -/
theorem get?_eq {fs fs' : Fields} (h : fs.arranged p = fs'.arranged p) {k : String}
    (hk : p.below k = .fixed) : fs.get? k = fs'.get? k := by
  have hget := get?_alike h k
  rw [hk] at hget
  have hfixed : Json.arranged .fixed = id := funext Json.arranged_fixed
  rwa [hfixed, Option.map_id] at hget

theorem arranged_of_obj {fs fs' : List (String × Json)}
    (h : (Json.obj fs).arranged p = (Json.obj fs').arranged p) :
    Fields.arranged p ⟨fs⟩ = Fields.arranged p ⟨fs'⟩ :=
  congrArg OrderedMap.mk (Json.obj.inj h)

theorem map_eq_of_rel {γ : Type} {f : α → γ} {o o' : Option α}
    (h : Option.Rel (fun a b => f a = f b) o o') : o.map f = o'.map f := by
  cases h with
  | none => rfl
  | some hab => exact congrArg some hab

theorem eq_of_rel {o o' : Option α} (h : Option.Rel Eq o o') : o = o' := by
  cases h with
  | none => rfl
  | some hab => exact congrArg some hab

/-! ## Putting readings together -/

namespace FieldsRespect

variable {read : Fields → Check α}

/-- What is read may be completed from the fields. -/
theorem mapFields (h : FieldsRespect p R read) {f : Fields → α → β}
    (hf : ∀ fs fs', fs.arranged p = fs'.arranged p → ∀ x x', R x x' → S (f fs x) (f fs' x')) :
    FieldsRespect p S fun fs => f fs <$> read fs := by
  intro fs fs' y y' hfs hy hy'
  obtain ⟨x, hx, rfl⟩ := Check.map_eq_valid_iff.1 hy
  obtain ⟨x', hx', rfl⟩ := Check.map_eq_valid_iff.1 hy'
  exact hf fs fs' hfs x x' (h fs fs' x x' hfs hx hx')

theorem map (h : FieldsRespect p R read) {f : α → β} (hf : ∀ x x', R x x' → S (f x) (f x')) :
    FieldsRespect p S fun fs => f <$> read fs :=
  h.mapFields fun _ _ _ => hf

theorem seq {readMap : Fields → Check (α → β)}
    (hmap : FieldsRespect p (fun f g => ∀ x x', R x x' → S (f x) (g x')) readMap)
    (h : FieldsRespect p R read) : FieldsRespect p S fun fs => readMap fs <*> read fs := by
  intro fs fs' y y' hfs hy hy'
  obtain ⟨f, x, hf, hx, rfl⟩ := Check.seq_eq_valid_iff.1 hy
  obtain ⟨g, x', hg, hx', rfl⟩ := Check.seq_eq_valid_iff.1 hy'
  exact hmap fs fs' f g hfs hf hg x x' (h fs fs' x x' hfs hx hx')

/-- What is read may be refused after all. -/
theorem andThen (h : FieldsRespect p R read) {f : Fields → α → Check β}
    (hf : ∀ fs fs' x x' y y', R x x' → f fs x = .valid y → f fs' x' = .valid y' → S y y') :
    FieldsRespect p S fun fs => (read fs).andThen (f fs) := by
  intro fs fs' y y' hfs hy hy'
  obtain ⟨x, hx, hy⟩ := Check.andThen_eq_valid_iff.1 hy
  obtain ⟨x', hx', hy'⟩ := Check.andThen_eq_valid_iff.1 hy'
  exact hf fs fs' x x' y y' (h fs fs' x x' hfs hx hx') hy hy'

theorem irrelevant (read : Fields → Check α) : FieldsRespect p (fun _ _ => True) read :=
  fun _ _ _ _ _ _ _ => trivial

theorem required {k : String} (hk : p.below k = q) {read : Reading α} (h : Respects q R read) :
    FieldsRespect p R fun fs => requiredField fs k read := by
  intro fs fs' x x' hfs hx hx'
  unfold requiredField at hx hx'
  rw [Check.underKey_eq_valid_iff] at hx hx'
  have hget := get?_alike hfs k
  rw [hk] at hget
  rcases cases_of_map_eq_map hget with ⟨hj, -⟩ | ⟨j, j', hj, hj', hjj'⟩
  · rw [hj] at hx
    cases hx
  · rw [hj] at hx
    rw [hj'] at hx'
    exact h j j' x x' hjj' hx hx'

theorem optional {k : String} (hk : p.below k = q) {read : Reading α} (h : Respects q R read)
    {dflt : α} (hdflt : R dflt dflt) :
    FieldsRespect p R fun fs => optionalField fs k dflt read := by
  intro fs fs' x x' hfs hx hx'
  unfold optionalField at hx hx'
  rw [Check.underKey_eq_valid_iff] at hx hx'
  have hget := get?_alike hfs k
  rw [hk] at hget
  rcases cases_of_map_eq_map hget with ⟨hj, hj'⟩ | ⟨j, j', hj, hj', hjj'⟩
  · rw [hj] at hx
    rw [hj'] at hx'
    obtain rfl := Check.valid.inj hx
    obtain rfl := Check.valid.inj hx'
    exact hdflt
  · rw [hj] at hx
    rw [hj'] at hx'
    exact h j j' x x' hjj' hx hx'

end FieldsRespect

namespace Respects

variable {read : Reading α}

theorem nullable (h : Respects p R read) : Respects p (Option.Rel R) (nullable read) := by
  have hnull : ∀ {j : Json} {x : Option α}, j ≠ .null → Schema.nullable read j = .valid x →
      ∃ a, read j = .valid a ∧ x = some a := by
    intro j x hj hx
    have hsome : (read j).map some = .valid x := by
      cases j <;> first | exact hx | exact absurd rfl hj
    cases hread : read j with
    | valid a =>
      rw [hread] at hsome
      exact ⟨a, rfl, (Check.valid.inj hsome).symm⟩
    | invalid issues => rw [hread] at hsome; cases hsome
  intro j j' x x' hj hx hx'
  by_cases hjn : j = .null
  · subst hjn
    obtain rfl : j' = .null := by cases j' <;> first | rfl | cases hj
    obtain rfl := Check.valid.inj hx
    obtain rfl := Check.valid.inj hx'
    exact .none
  · have hjn' : j' ≠ .null := by
      rintro rfl
      cases j <;> first | exact hjn rfl | cases hj
    obtain ⟨a, ha, rfl⟩ := hnull hjn hx
    obtain ⟨a', ha', rfl⟩ := hnull hjn' hx'
    exact .some (h j j' a a' hj ha ha')

theorem record {read : Fields → Check α} (h : FieldsRespect p R read) :
    Respects p R (readRecord read) := by
  intro j j' x x' hj hx hx'
  cases j with
  | obj fs =>
    cases j' with
    | obj fs' => exact h ⟨fs⟩ ⟨fs'⟩ x x' (arranged_of_obj hj) hx hx'
    | null | bool | num | str | arr | table => cases hx'
  | null | bool | num | str | arr | table => cases hx

/-- Values without parts do not differ in the order of keys. -/
theorem of_scalar (harr : ∀ l x, read (.arr l) ≠ .valid x) (hobj : ∀ l x, read (.obj l) ≠ .valid x)
    (htable : ∀ l x, read (.table l) ≠ .valid x) : Respects p Eq read := by
  intro j j' x x' hj hx hx'
  rcases Json.arranged_cases hj with rfl | ⟨l, _, rfl, -⟩ | ⟨l, _, rfl, -⟩ | ⟨l, _, rfl, -⟩
  · exact Check.valid.inj (hx.symm.trans hx')
  · exact absurd hx (harr l x)
  · exact absurd hx (hobj l x)
  · exact absurd hx (htable l x)

end Respects

/-- A field that may be null. -/
theorem FieldsRespect.nullable {k : String} (hk : p.below k = q) {read : Reading α}
    (h : Respects q R read) :
    FieldsRespect p (Option.Rel R) fun fs => nullableField fs k read :=
  .optional hk h.nullable .none

/-! ## Plain values -/

theorem respects_readString : Respects p Eq readString :=
  .of_scalar (fun _ _ => nofun) (fun _ _ => nofun) fun _ _ => nofun

theorem respects_readMember (ofName? : String → Option α) : Respects p Eq (readMember ofName?) :=
  .of_scalar (fun _ _ => nofun) (fun _ _ => nofun) fun _ _ => nofun

theorem respects_readMeasure : Respects p Eq readMeasure :=
  .of_scalar (fun _ _ => nofun) (fun _ _ => nofun) fun _ _ => nofun

theorem respects_readNumber : Respects p Eq readNumber :=
  .of_scalar (fun _ _ => nofun) (fun _ _ => nofun) fun _ _ => nofun

theorem respects_readSize : Respects p Eq readSize := by
  intro j j' x x' hj hx hx'
  have hnumber : j.number? = j'.number? := by
    rw [← Json.number?_arranged p, hj, Json.number?_arranged]
  unfold readSize at hx hx'
  rw [hnumber] at hx
  exact Check.valid.inj (hx.symm.trans hx')

theorem respects_readObject : Respects p (fun a b => a.arranged p = b.arranged p) readObject := by
  intro j j' x x' hj hx hx'
  cases j with
  | obj fs =>
    cases j' with
    | obj fs' =>
      obtain rfl := Check.valid.inj hx
      obtain rfl := Check.valid.inj hx'
      exact arranged_of_obj hj
    | null | bool | num | str | arr | table => cases hx'
  | null | bool | num | str | arr | table => cases hx

/-- What is read of items that differ in the order of keys is related item by item. -/
theorem readItems_alike {read : Reading α} (h : Respects p R read) {items items' : List Json}
    (hitems : Json.arrangedItems p items = Json.arrangedItems p items') {i i' : Nat}
    {l l' : List α} (hl : readItems read i items = .valid l)
    (hl' : readItems read i' items' = .valid l') : List.Forall₂ R l l' := by
  induction items generalizing items' i i' l l' with
  | nil =>
    cases items' with
    | nil =>
      obtain rfl := Check.valid.inj hl
      obtain rfl := Check.valid.inj hl'
      exact .nil
    | cons j' rest' => cases hitems
  | cons j rest ih =>
    cases items' with
    | nil => cases hitems
    | cons j' rest' =>
      obtain ⟨hj, hrest⟩ := List.cons.inj hitems
      rw [readItems, Check.seq_eq_valid_iff] at hl hl'
      obtain ⟨f, m, hf, hm, rfl⟩ := hl
      obtain ⟨g, m', hg, hm', rfl⟩ := hl'
      rw [Check.map_eq_valid_iff] at hf hg
      obtain ⟨x, hx, rfl⟩ := hf
      obtain ⟨x', hx', rfl⟩ := hg
      rw [Check.under_eq_valid_iff] at hx hx'
      exact .cons (h j j' x x' hj hx hx') (ih hrest hm hm')

theorem respects_readRows : Respects p
    (List.Forall₂ fun row row' : Fields => row.arranged p = row'.arranged p) readRows := by
  intro j j' x x' hj hx hx'
  cases j with
  | arr items =>
    cases j' with
    | arr items' => exact readItems_alike respects_readObject (Json.arr.inj hj) hx hx'
    | null | bool | num | str | obj | table => cases hj
  | table rows =>
    cases j' with
    | table rows' => exact readItems_alike respects_readObject (Json.table.inj hj) hx hx'
    | null | bool | num | str | obj | arr => cases hj
  | null | bool | num | str | obj => cases hx

/-! ## Channels and marks -/

theorem respects_readGuide : Respects p (fun g g' => g.sketch p = g'.sketch p) readGuide := by
  intro j j' g g' hj hg hg'
  rcases Json.arranged_cases hj with rfl | ⟨l, l', rfl, rfl⟩ | ⟨l, l', rfl, rfl⟩ | ⟨l, l', rfl, rfl⟩
  · rw [Check.valid.inj (hg.symm.trans hg')]
  · cases hg
  · obtain rfl := Check.valid.inj hg
    obtain rfl := Check.valid.inj hg'
    exact congrArg GuideSetting.properties (arranged_of_obj hj)
  · cases hg

theorem channelContent_alike {fs fs' : Fields} (h : fs.arranged .channel = fs'.arranged .channel)
    (field : Option String) : channelContent field fs = channelContent field fs' := by
  unfold channelContent
  rw [contains_alike h, get?_eq h (by decide), get?_eq h (by decide)]

/-- Channels that differ in the order of keys have one sketch, for constants do not differ. -/
theorem fieldsRespect_readChannelFields :
    FieldsRespect .channel (fun d d' => d.sketch .free = d'.sketch .free) readChannelFields := by
  refine .andThen (R := fun d d' => d.sketch .free = d'.sketch .free) ?_ ?_
  · refine .seq ?_ (.optional (q := .free) (by decide) respects_readGuide rfl)
    refine .seq ?_ (.optional (q := .free) (by decide) respects_readGuide rfl)
    refine .seq ?_ (.nullable (q := .free) (by decide) respects_readObject)
    refine .seq ?_ (.nullable (q := .free) (by decide) respects_readMeasure)
    refine .mapFields (.nullable (q := .free) (by decide) respects_readString) ?_
    intro fs fs' hfs field field' hfield measure measure' hmeasure scale scale' hscale axis axis'
      haxis legend legend' hlegend
    obtain rfl := eq_of_rel hfield
    obtain rfl := eq_of_rel hmeasure
    simp only [ChannelDef.sketch, channelContent_alike hfs, map_eq_of_rel hscale, haxis, hlegend]
  · intro fs fs' d d' e e' hd he he'
    have hkept : ∀ {fs : Fields} {d e : ChannelDef}, (if (definitionsGiven fs).length ≤ 1 then
        Check.valid d else .fail (.refused (.mixedDefinition (definitionsGiven fs)))) = .valid e →
        d = e := by
      intro fs d e h
      split at h
      · exact Check.valid.inj h
      · cases h
    rwa [← hkept he, ← hkept he']

theorem field?_of_content {d : ChannelDef} {field : Option String} {fs : Fields}
    (h : d.content = channelContent field fs) : d.field? = field := by
  unfold ChannelDef.field?
  rw [h]
  unfold channelContent
  cases field with
  | some name => rfl
  | none =>
    cases fs.contains "field" with
    | true => rfl
    | false =>
      cases fs.get? "datum" with
      | some j => rfl
      | none => cases fs.get? "value" <;> rfl

/-- The field of a channel is read under its key. -/
theorem readField_of_readChannelFields {fs : Fields} {d : ChannelDef}
    (h : readChannelFields fs = .valid d) : nullableField fs "field" readString = .valid d.field? := by
  unfold readChannelFields at h
  simp only [Check.andThen_eq_valid_iff, Check.seq_eq_valid_iff, Check.map_eq_valid_iff] at h
  obtain ⟨e, ⟨_, legend, ⟨_, axis, ⟨_, scale, ⟨_, measure, ⟨field, hfield, rfl⟩, -, rfl⟩, -, rfl⟩, -,
    rfl⟩, -, he⟩, hd⟩ := h
  have hde : e = d := by
    split at hd
    · exact Check.valid.inj hd
    · cases hd
  rw [hfield, ← hde, ← he, field?_of_content rfl]

theorem respects_facetChannel :
    Respects .free (fun d d' => ChannelDef.ofField d.field? = .ofField d'.field?) readChannel :=
  .record fun _ _ _ _ hfs hd hd' => by
    rw [eq_of_rel (FieldsRespect.nullable (q := .free) (by decide) respects_readString _ _ _ _ hfs
      (readField_of_readChannelFields hd) (readField_of_readChannelFields hd'))]

theorem respects_readMark : Respects p (fun m m' => m.type = m'.type) readMark := by
  have hrecord : Respects p (fun m m' : MarkDef => m.type = m'.type) (readRecord fun fs =>
      (fun type => ⟨type, extraFields ["type"] fs⟩) <$> requiredField fs "type" readString) :=
    .record (.mapFields (.required rfl respects_readString) fun _ _ _ _ _ htype => htype)
  intro j j' m m' hj hm hm'
  rcases Json.arranged_cases hj with rfl | ⟨l, l', rfl, rfl⟩ | ⟨l, l', rfl, rfl⟩ | ⟨l, l', rfl, rfl⟩
  · rw [Check.valid.inj (hm.symm.trans hm')]
  · cases hm
  · exact hrecord _ _ m m' hj hm hm'
  · cases hm

/-! ## Encodings -/

/-- One channel definition or several: the sketch of several is the same whatever they are. -/
theorem respects_readEncoded :
    Respects .channel (fun e e' => e.sketch .free = e'.sketch .free) readEncoded := by
  have hone : ∀ {l e}, readEncoded (.obj l) = .valid e →
      ∃ d, readChannel (.obj l) = .valid d ∧ e = .one d := by
    intro l e he
    unfold readEncoded at he
    cases hread : readChannel (.obj l) with
    | valid d =>
      rw [hread] at he
      exact ⟨d, rfl, (Check.valid.inj he).symm⟩
    | invalid issues => rw [hread] at he; cases he
  have hmany : ∀ {l e}, readEncoded (.arr l) = .valid e → ∃ ds, e = .many ds := by
    intro l e he
    unfold readEncoded at he
    cases hread : readList readChannel (.arr l) with
    | valid ds =>
      rw [hread] at he
      exact ⟨ds, (Check.valid.inj he).symm⟩
    | invalid issues => rw [hread] at he; cases he
  intro j j' e e' hj he he'
  rcases Json.arranged_cases hj with rfl | ⟨l, l', rfl, rfl⟩ | ⟨l, l', rfl, rfl⟩ | ⟨l, l', rfl, rfl⟩
  · rw [Check.valid.inj (he.symm.trans he')]
  · obtain ⟨ds, rfl⟩ := hmany he
    obtain ⟨ds', rfl⟩ := hmany he'
    rfl
  · obtain ⟨d, hd, rfl⟩ := hone he
    obtain ⟨d', hd', rfl⟩ := hone he'
    exact congrArg Encoded.one
      (Respects.record fieldsRespect_readChannelFields _ _ d d' hj hd hd')
  · cases he

theorem channelEntries_alike {l l' : List (String × Json)}
    (h : Json.arrangedFields .encoding l = Json.arrangedFields .encoding l')
    {m m' : List (Channel × Json)} (hm : channelEntries l = .ok m) (hm' : channelEntries l' = .ok m') :
    List.Forall₂ (fun e e' => e.1 = e'.1 ∧ e.2.arranged .channel = e'.2.arranged .channel) m m' := by
  induction l generalizing l' m m' with
  | nil =>
    cases l' with
    | nil =>
      obtain rfl := Except.ok.inj hm
      obtain rfl := Except.ok.inj hm'
      exact .nil
    | cons f rest' => cases h
  | cons f rest ih =>
    cases l' with
    | nil => cases h
    | cons g rest' =>
      obtain ⟨hfg, hrest⟩ := List.cons.inj h
      obtain ⟨hkey, hvalue⟩ := Prod.mk.inj hfg
      rw [channelEntries] at hm hm'
      rw [← hkey] at hm'
      cases hc : Channel.ofName? f.1 with
      | none => rw [hc] at hm; cases hm
      | some c =>
        rw [hc] at hm hm'
        cases hn : channelEntries rest with
        | error e => rw [hn] at hm; cases hm
        | ok n =>
          cases hn' : channelEntries rest' with
          | error e => rw [hn'] at hm'; cases hm'
          | ok n' =>
            rw [hn] at hm
            rw [hn'] at hm'
            obtain rfl := Except.ok.inj hm
            obtain rfl := Except.ok.inj hm'
            exact .cons ⟨rfl, hvalue⟩ (ih hrest hn hn')

theorem readChannelEntries_alike {m m' : List (Channel × Json)}
    (h : List.Forall₂
      (fun e e' => e.1 = e'.1 ∧ e.2.arranged .channel = e'.2.arranged .channel) m m')
    {l l' : List (Channel × Encoded)} (hl : readChannelEntries m = .valid l)
    (hl' : readChannelEntries m' = .valid l') :
    l.map (fun e => (e.1, e.2.sketch .free)) = l'.map fun e => (e.1, e.2.sketch .free) := by
  induction h generalizing l l' with
  | nil =>
    obtain rfl := Check.valid.inj hl
    obtain rfl := Check.valid.inj hl'
    rfl
  | @cons e e' rest rest' he _ ih =>
    rw [readChannelEntries] at hl hl'
    simp only [Check.seq_eq_valid_iff, Check.map_eq_valid_iff, Check.underKey_eq_valid_iff] at hl hl'
    obtain ⟨_, n, ⟨d, hd, rfl⟩, hn, rfl⟩ := hl
    obtain ⟨_, n', ⟨d', hd', rfl⟩, hn', rfl⟩ := hl'
    rw [List.map_cons, List.map_cons, ih hn hn', he.1, respects_readEncoded _ _ d d' he.2 hd hd']

theorem respects_readEncoding : Respects .encoding
    (fun m m' => m.mapValues (Encoded.sketch .free) = m'.mapValues (Encoded.sketch .free))
    readEncoding := by
  have hread : ∀ {j : Json} {m : OrderedMap Channel Encoded}, readEncoding j = .valid m →
      ∃ l entries, j = .obj l ∧ channelEntries l = .ok entries ∧
        readChannelEntries entries = .valid m.entries := by
    intro j m hm
    cases j with
    | obj l =>
      unfold readEncoding at hm
      simp only at hm
      cases hentries : channelEntries l with
      | error cause => rw [hentries] at hm; cases hm
      | ok entries =>
        rw [hentries] at hm
        obtain ⟨n, hn, rfl⟩ := Check.map_eq_valid_iff.1 hm
        exact ⟨l, entries, rfl, hentries, hn⟩
    | null | bool | num | str | arr | table => cases hm
  intro j j' m m' hj hm hm'
  obtain ⟨l, entries, rfl, hentries, hl⟩ := hread hm
  obtain ⟨l', entries', rfl, hentries', hl'⟩ := hread hm'
  exact congrArg OrderedMap.mk
    (readChannelEntries_alike (channelEntries_alike (Json.obj.inj hj) hentries hentries') hl hl')

/-! ## Maps from keys -/

/-- What is found under a key among entries that were read was read under it. -/
theorem readEntries_find? {read : Reading α} {fs : List (String × Json)} {l : List (String × α)}
    (h : readEntries read fs = .valid l) (k : String) :
    Option.Rel (fun j x => read j = .valid x) (OrderedMap.find? k fs) (OrderedMap.find? k l) := by
  induction fs generalizing l with
  | nil =>
    obtain rfl := Check.valid.inj h
    exact .none
  | cons f rest ih =>
    rw [readEntries] at h
    simp only [Check.seq_eq_valid_iff, Check.map_eq_valid_iff, Check.underKey_eq_valid_iff] at h
    obtain ⟨_, m, ⟨x, hx, rfl⟩, hm, rfl⟩ := h
    rw [OrderedMap.find?, OrderedMap.find?]
    split
    · exact .some hx
    · exact ih hm

theorem readModes_find? {fs : List (String × Json)} {l : List (Channel × ResolveMode)}
    (h : readModes fs = .valid l) (c : Channel) :
    Option.Rel (fun j m => readMember ResolveMode.ofName? j = .valid m)
      (OrderedMap.find? c.name fs) (OrderedMap.find? c l) := by
  induction fs generalizing l with
  | nil =>
    obtain rfl := Check.valid.inj h
    exact .none
  | cons f rest ih =>
    rw [readModes] at h
    simp only [Check.seq_eq_valid_iff, Check.map_eq_valid_iff, Check.underKey_eq_valid_iff] at h
    obtain ⟨_, m, ⟨_, mode, ⟨d, hd, rfl⟩, hmode, rfl⟩, hm, rfl⟩ := h
    have hname : d.name = f.1 := by
      cases hofName : Channel.ofName? f.1 with
      | none => rw [hofName] at hd; cases hd
      | some e =>
        rw [hofName] at hd
        obtain rfl := Check.valid.inj hd
        exact eq_of_beq (@List.find?_some _ (fun c : Channel => c.name == f.1) _ _ hofName)
    rw [OrderedMap.find?, OrderedMap.find?, ← hname]
    by_cases hc : c = d
    · rw [if_pos (congrArg Channel.name hc), if_pos hc]
      exact .some hmode
    · have hne : c.name ≠ d.name := fun h => hc <| by
        rw [← Option.some.injEq, ← c.ofName?_name, h, d.ofName?_name]
      rw [if_neg hne, if_neg hc]
      exact ih hm

/-- What is read under one key of objects that differ in order is related. -/
theorem rel_of_reads {read : Reading α} (h : Respects q R read) {o o' : Option Json}
    (ho : o.map (Json.arranged q) = o'.map (Json.arranged q)) {x x' : Option α}
    (hx : Option.Rel (fun j a => read j = .valid a) o x)
    (hx' : Option.Rel (fun j a => read j = .valid a) o' x') : Option.Rel R x x' := by
  rcases cases_of_map_eq_map ho with ⟨rfl, rfl⟩ | ⟨j, j', rfl, rfl, hj⟩
  · cases hx
    cases hx'
    exact .none
  · cases hx with
    | some ha =>
      cases hx' with
      | some ha' => exact .some (h j j' _ _ hj ha ha')

/-- Modes are found by their channels, in whatever order they are given. -/
theorem respects_readModeMap :
    Respects .free (fun m m' => sortedModes m = sortedModes m') readModeMap := by
  intro j j' m m' hj hm hm'
  have hread : ∀ {j : Json} {m : OrderedMap Channel ResolveMode}, readModeMap j = .valid m →
      ∃ l, j = .obj l ∧ readModes l = .valid m.entries := by
    intro j m hm
    cases j with
    | obj l =>
      obtain ⟨n, hn, rfl⟩ := Check.map_eq_valid_iff.1 hm
      exact ⟨l, rfl, hn⟩
    | null | bool | num | str | arr | table => cases hm
  obtain ⟨l, rfl, hl⟩ := hread hm
  obtain ⟨l', rfl, hl'⟩ := hread hm'
  have hget : ∀ c, m.get? c = m'.get? c := fun c =>
    eq_of_rel (rel_of_reads (respects_readMember _)
      (Json.map_arranged_find?_eq (Json.obj.inj hj) c.name) (readModes_find? hl c)
      (readModes_find? hl' c))
  unfold sortedModes
  simp only [hget]

theorem respects_readDatasets : Respects .free
    (fun m m' => ∀ n, Option.Rel
      (List.Forall₂ fun row row' : Fields => row.arranged .free = row'.arranged .free)
      (m.get? n) (m'.get? n)) readDatasets := by
  intro j j' m m' hj hm hm'
  have hread : ∀ {j : Json} {m : OrderedMap String (List Fields)}, readDatasets j = .valid m →
      ∃ l, j = .obj l ∧ readEntries readRows l = .valid m.entries := by
    intro j m hm
    cases j with
    | obj l =>
      obtain ⟨n, hn, rfl⟩ := Check.map_eq_valid_iff.1 hm
      exact ⟨l, rfl, hn⟩
    | null | bool | num | str | arr | table => cases hm
  obtain ⟨l, rfl, hl⟩ := hread hm
  obtain ⟨l', rfl, hl'⟩ := hread hm'
  exact fun n => rel_of_reads respects_readRows
    (Json.map_arranged_find?_eq (Json.obj.inj hj) n) (readEntries_find? hl n) (readEntries_find? hl' n)

end ChartLowering.Schema
