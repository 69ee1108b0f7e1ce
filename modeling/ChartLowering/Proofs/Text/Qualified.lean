import ChartLowering.Text.Identifier

/-
  Generated names, taken apart.

  A part is a text of word characters that no digit opens; the parts of generated names and the
  positions of views are such texts. The name of a part tells the parts of one owner apart
  (`qualified_injective`), whatever characters the owner's name has, and owners that have one part in
  common have all of them (`qualified_eq_of_length_eq`). A derived owner is its parent's name and a
  position, so its parts are parts of the parent too (`qualified_join`).
-/

namespace ChartLowering.Text

/-- Word characters, of which the first is no digit. -/
def IsPart (s : String) : Prop :=
  s.toList.all isWordChar = true ∧ (s.toList.head?.all fun c => !isDecimalDigit c) = true

instance (s : String) : Decidable (IsPart s) := inferInstanceAs (Decidable (_ ∧ _))

/-! ## Identifiers -/

theorem map_identifierChar {cs : List Char} (h : cs.all isWordChar = true) :
    cs.map identifierChar = cs := by
  rw [List.all_eq_true] at h
  conv => rhs; rw [← List.map_id cs]
  exact List.map_congr_left fun c hc => identifierChar_of_word (h c hc)

theorem guardDigit_of_head {cs : List Char} (h : (cs.head?.all fun c => !isDecimalDigit c) = true) :
    guardDigit cs = cs := by
  cases cs with
  | nil => rfl
  | cons c rest =>
    have hc : isDecimalDigit c = false := by simpa using h
    rw [guardDigit, hc]
    rfl

/-- What follows the first character is not guarded. -/
theorem identifierChars_append {cs : List Char} (h : cs ≠ []) (ds : List Char) :
    identifierChars (cs ++ ds) = identifierChars cs ++ ds.map identifierChar := by
  cases cs with
  | nil => exact absurd rfl h
  | cons c rest =>
    simp only [identifierChars, List.cons_append, List.map_cons, List.map_append, guardDigit]
    split <;> rfl

theorem toList_identifier (s : String) : (identifier s).toList = identifierChars s.toList := by
  rw [identifier, String.toList_ofList]

/-- An identifier is made of word characters. -/
theorem isWordChar_of_mem_identifier {s : String} {c : Char} (h : c ∈ (identifier s).toList) :
    isWordChar c = true := by
  rw [toList_identifier, identifierChars] at h
  have hword : ∀ c ∈ s.toList.map identifierChar, isWordChar c = true := by
    intro c hc
    obtain ⟨b, -, rfl⟩ := List.mem_map.1 hc
    exact isWordChar_identifierChar b
  cases hcs : s.toList.map identifierChar with
  | nil => rw [hcs] at h; exact absurd h List.not_mem_nil
  | cons b rest =>
    rw [hcs, guardDigit] at h
    rw [hcs] at hword
    split at h
    · rcases List.mem_cons.1 h with rfl | h
      · exact isWordChar_underscore
      · exact hword c h
    · exact hword c h

theorem identifierChars_of_isPart {s : String} (h : IsPart s) :
    identifierChars s.toList = s.toList := by
  unfold identifierChars
  rw [map_identifierChar h.1, guardDigit_of_head h.2]

theorem toList_ne_nil {s : String} (h : s ≠ "") : s.toList ≠ [] :=
  fun hs => h (String.toList_injective hs)

theorem isEmpty_eq_false {s : String} (h : s ≠ "") : ¬ s.isEmpty = true :=
  mt String.isEmpty_iff.1 h

/-! ## Names of parts -/

/-- What the names of all parts of an owner begin with. -/
def stem (owner : String) : List Char :=
  if owner = "" then [] else identifierChars (owner ++ "_").toList

theorem toList_qualified (owner : String) {part : String} (hp : IsPart part) :
    (qualified owner part).toList = stem owner ++ part.toList := by
  unfold stem
  split
  · rename_i ho
    rw [ho, qualified, if_pos (by rfl), toList_identifier, identifierChars_of_isPart hp]
    rfl
  · rename_i ho
    have hne : (owner ++ "_").toList ≠ [] := by simp
    rw [qualified, if_neg (isEmpty_eq_false ho), toList_identifier, String.toList_append,
      identifierChars_append hne, map_identifierChar hp.1]

/-- Generated names are made of word characters. -/
theorem isWordChar_of_mem_qualified {owner part : String} {c : Char}
    (h : c ∈ (qualified owner part).toList) : isWordChar c = true :=
  isWordChar_of_mem_identifier h

/-- The parts of one owner have different names. -/
theorem qualified_injective {owner p q : String} (hp : IsPart p) (hq : IsPart q)
    (h : qualified owner p = qualified owner q) : p = q := by
  have hl : (qualified owner p).toList = (qualified owner q).toList := by rw [h]
  rw [toList_qualified owner hp, toList_qualified owner hq] at hl
  exact String.toList_injective (List.append_cancel_left hl)

/-- Owners whose parts of one length have the same name share the names of all parts. -/
theorem qualified_eq_of_length_eq {m n p q : String} (hp : IsPart p) (hq : IsPart q)
    (hlength : p.toList.length = q.toList.length) (h : qualified m p = qualified n q) {r : String}
    (hr : IsPart r) : qualified m r = qualified n r := by
  have hl : (qualified m p).toList = (qualified n q).toList := by rw [h]
  rw [toList_qualified m hp, toList_qualified n hq] at hl
  apply String.toList_injective
  rw [toList_qualified m hr, toList_qualified n hr, (List.append_inj' hl hlength).1]

/-! ## Names by position -/

/-- A name below another one; below an unnamed thing it stands alone. -/
def join (outer inner : String) : String := if outer.isEmpty then inner else outer ++ "_" ++ inner

theorem qualified_eq_identifier_join (owner part : String) :
    qualified owner part = identifier (join owner part) := rfl

theorem join_unnamed (inner : String) : join "" inner = inner := rfl

theorem join_named {outer : String} (h : outer ≠ "") (inner : String) :
    join outer inner = outer ++ "_" ++ inner :=
  if_neg (isEmpty_eq_false h)

theorem append_ne_empty {s t : String} (h : s ≠ "" ∨ t ≠ "") : s ++ t ≠ "" := by
  intro hst
  have hl : s.toList ++ t.toList = [] := by rw [← String.toList_append, hst]; rfl
  obtain ⟨hs, ht⟩ := List.append_eq_nil_iff.1 hl
  rcases h with h | h
  · exact toList_ne_nil h hs
  · exact toList_ne_nil h ht

theorem join_ne_empty (outer : String) {inner : String} (h : inner ≠ "") : join outer inner ≠ "" := by
  by_cases ho : outer = ""
  · rw [ho, join_unnamed]
    exact h
  · rw [join_named ho]
    exact append_ne_empty (Or.inr h)

theorem underscore_mem_join {outer inner : String} (h : outer ≠ "") :
    '_' ∈ (join outer inner).toList := by
  rw [join_named h, String.toList_append, String.toList_append]
  simp

theorem join_assoc (a : String) {b : String} (hb : b ≠ "") (c : String) :
    join (join a b) c = join a (join b c) := by
  rw [join_named (join_ne_empty a hb), join_named hb]
  by_cases ha : a = ""
  · rw [ha, join_unnamed, join_unnamed]
  · rw [join_named ha, join_named ha]
    simp only [String.append_assoc]

/-- A part of a thing that is named below another one is a part of that one. -/
theorem qualified_join (owner : String) {position : String} (h : position ≠ "") (part : String) :
    qualified (join owner position) part = qualified owner (join position part) := by
  rw [qualified_eq_identifier_join, qualified_eq_identifier_join, join_assoc owner h]

theorem isPart_append {a b : String} (ha : IsPart a) (hne : a ≠ "")
    (hb : b.toList.all isWordChar = true) : IsPart (a ++ b) := by
  obtain ⟨c, rest, hc⟩ := List.exists_cons_of_ne_nil (toList_ne_nil hne)
  have hhead := ha.2
  unfold IsPart
  rw [String.toList_append, List.all_append, ha.1, hb]
  rw [hc] at hhead ⊢
  exact ⟨rfl, hhead⟩

theorem isPart_join {a b : String} (ha : IsPart a) (hb : IsPart b) : IsPart (join a b) := by
  by_cases hne : a = ""
  · rw [hne, join_unnamed]
    exact hb
  · have hrest : ("_" ++ b).toList.all isWordChar = true := by
      rw [String.toList_append, List.all_append, hb.1]
      decide +kernel
    rw [join_named hne, String.append_assoc]
    exact isPart_append ha hne hrest

/-- Names of parts of an owner that has no strange characters are plainly joined. -/
theorem qualified_of_isPart {owner part : String} (howner : IsPart owner) (hpart : IsPart part) :
    qualified owner part = join owner part := by
  apply String.toList_injective
  rw [qualified_eq_identifier_join, toList_identifier,
    identifierChars_of_isPart (isPart_join howner hpart)]

/-! ## Names moved below others -/

/-- A name as it is below another one; what has no name takes the outer one. -/
def under (outer name : String) : String := if name.isEmpty then outer else outer ++ "_" ++ name

theorem under_unnamed (outer : String) : under outer "" = outer := rfl

section Under

variable {outer : String} (houter : outer ≠ "")

include houter

theorem under_eq_join {name : String} (h : name ≠ "") : under outer name = join outer name := by
  rw [under, if_neg (isEmpty_eq_false h), join_named houter]

/-- What is below a moved name has moved with it. -/
theorem join_under (name : String) {position : String} (h : position ≠ "") :
    join (under outer name) position = under outer (join name position) := by
  rw [under_eq_join houter (join_ne_empty name h)]
  by_cases hname : name = ""
  · rw [hname, under_unnamed, join_unnamed]
  · rw [under_eq_join houter hname, join_assoc outer hname]

theorem isPart_under (hpart : IsPart outer) {name : String} (h : IsPart name) :
    IsPart (under outer name) := by
  by_cases hname : name = ""
  · rw [hname, under_unnamed]
    exact hpart
  · rw [under_eq_join houter hname]
    exact isPart_join hpart h

/-- The parts of a moved owner have the names of its parts, moved. -/
theorem qualified_under (hpart : IsPart outer) {name part : String} (hname : IsPart name)
    (h : IsPart part) : qualified (under outer name) part = outer ++ "_" ++ qualified name part := by
  rw [qualified_of_isPart (isPart_under houter hpart hname) h, qualified_of_isPart hname h,
    ← join_named houter]
  by_cases hempty : name = ""
  · rw [hempty, under_unnamed, join_unnamed]
  · rw [under_eq_join houter hempty, join_assoc outer hempty]

end Under

/-! ## Numbered positions -/

theorem isWordChar_of_isDigit {c : Char} (h : c.isDigit = true) : isWordChar c = true := by
  have hc : 48 ≤ c.toNat ∧ c.toNat ≤ 57 := by
    simpa [Char.isDigit, UInt32.le_iff_toNat_le] using h
  have hrange : (0x30, 0x39) ∈ wordRanges := List.mem_cons_self
  unfold isWordChar inRanges
  rw [List.any_eq_true]
  exact ⟨(0x30, 0x39), hrange, by simpa using hc⟩

theorem isPart_append_toString {s : String} (hs : IsPart s) (hne : s ≠ "") (n : Nat) :
    IsPart (s ++ toString n) := by
  apply isPart_append hs hne
  rw [List.all_eq_true]
  intro c hc
  rw [Nat.toString_eq_repr, Nat.toList_repr] at hc
  exact isWordChar_of_isDigit (Nat.isDigit_of_mem_toDigits (by decide) (by decide) hc)

/-- Numbered texts differ even where more follows them, behind an underscore. -/
theorem numbered_eq_of_append_eq {s : String} {m n : Nat} {r r' : List Char}
    (h : (s ++ toString m).toList ++ '_' :: r = (s ++ toString n).toList ++ '_' :: r') : m = n := by
  have hdigits : ∀ n : Nat, ∀ c ∈ (toString n).toList, c.isDigit = true := by
    intro n c hc
    rw [Nat.toString_eq_repr, Nat.toList_repr] at hc
    exact Nat.isDigit_of_mem_toDigits (by decide) (by decide) hc
  rw [String.toList_append, String.toList_append, List.append_assoc, List.append_assoc] at h
  have htake := congrArg (List.takeWhile Char.isDigit) (List.append_cancel_left h)
  rw [List.takeWhile_append_of_pos (hdigits m), List.takeWhile_append_of_pos (hdigits n),
    List.takeWhile_cons_of_neg (by decide), List.takeWhile_cons_of_neg (by decide),
    List.append_nil, List.append_nil, Nat.toString_eq_repr, Nat.toString_eq_repr, Nat.toList_repr,
    Nat.toList_repr] at htake
  rw [← Nat.ofDigitChars_ten_toDigits (n := m), htake, Nat.ofDigitChars_ten_toDigits]

end ChartLowering.Text
