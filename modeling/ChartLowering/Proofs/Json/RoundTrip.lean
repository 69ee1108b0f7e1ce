import ChartLowering.Json.Reader
import ChartLowering.Json.Writer

/-
  Reading back what was written.

  A value without floating-point numbers is read back from its compact text, whatever follows it in
  a longer text (`readValue_write`), so different values have different texts
  (`compactText_injective`). A whole number is the one value whose text could go on in what follows;
  after a value stands a comma, a closing bracket or nothing, none of which may stand in a number.
-/

namespace ChartLowering.Json

mutual

/-- Whether there are no floating-point numbers and no tables in a value. -/
def isExact : Json → Bool
  | .num (.float _) | .table _ => false
  | .arr items => isExactAll items
  | .obj fields => isExactFields fields
  | _ => true

def isExactAll : List Json → Bool
  | [] => true
  | v :: rest => isExact v && isExactAll rest

def isExactFields : List (String × Json) → Bool
  | [] => true
  | (_, v) :: rest => isExact v && isExactFields rest

end

/-! ## Texts -/

theorem hex4?_append {ds : List Char} (h : ds.length = 4) (rest : List Char) :
    hex4? (ds ++ rest) = (hex4? ds).map fun r => (r.1, rest) := by
  match ds, h with
  | [a, b, c, d], _ =>
    simp only [hex4?, List.cons_append, List.nil_append]
    cases hexValue? a <;> cases hexValue? b <;> cases hexValue? c <;> cases hexValue? d <;> rfl

/-- The escape of a control is read back. -/
theorem unicodeEscape?_hex {n : Nat} (h : n < 0x20) (rest : List Char) :
    unicodeEscape? (Text.hex 4 n ++ rest) = some (Char.ofNat n, rest) := by
  have hdigits : ∀ n < 0x20, (Text.hex 4 n).length = 4 ∧ hex4? (Text.hex 4 n) = some (n, []) := by
    decide +kernel
  obtain ⟨hlength, hvalue⟩ := hdigits n h
  have hhigh : ¬ (0xd800 ≤ n ∧ n ≤ 0xdbff) := by omega
  have hlow : ¬ (0xdc00 ≤ n ∧ n ≤ 0xdfff) := by omega
  unfold unicodeEscape?
  rw [hex4?_append hlength, hvalue]
  show (if 0xd800 ≤ n ∧ n ≤ 0xdbff then _
    else if 0xdc00 ≤ n ∧ n ≤ 0xdfff then none else some (Char.ofNat n, rest)) = _
  rw [if_neg hhigh, if_neg hlow]

/-- Every written character is read back in one step. -/
theorem readString_writeChar (fuel : Nat) (done : List Char) (c : Char) (cs : List Char) :
    readString (fuel + 1) done (writeChar .compact c ++ cs) = readString fuel (c :: done) cs := by
  unfold writeChar
  split
  · rename_i hquoted
    rcases hquoted with rfl | rfl <;> rfl
  split
  · rename_i hc; subst hc; rfl
  split
  · rename_i hc; subst hc; rfl
  split
  · rename_i hc; subst hc; rfl
  split
  · rename_i hc; subst hc; rfl
  split
  · rename_i hc; subst hc; rfl
  split
  · rename_i hcontrol
    have hcontrol : c.toNat < 0x20 := hcontrol.resolve_right nofun
    have hescape : unitEscapes c.toNat ++ cs = '\\' :: 'u' :: (Text.hex 4 c.toNat ++ cs) := by
      unfold unitEscapes
      rw [if_pos (by omega)]
      rfl
    rw [hescape, readString, unicodeEscape?_hex hcontrol, Char.ofNat_toNat]
  · rename_i hquoted _ _ _ _ _ _
    rw [not_or] at hquoted
    rw [List.singleton_append, readString]
    · exact hquoted.1
    · exact fun _ _ h => absurd h hquoted.2

theorem readString_flatMap (cs : List Char) (done rest : List Char) {fuel : Nat}
    (hfuel : cs.length < fuel) :
    readString fuel done (cs.flatMap (writeChar .compact) ++ '"' :: rest) =
      some (String.ofList (done.reverse ++ cs), rest) := by
  induction cs generalizing fuel done with
  | nil =>
    obtain ⟨fuel, rfl⟩ := Nat.exists_eq_succ_of_ne_zero (Nat.ne_of_gt hfuel)
    rw [List.append_nil]
    rfl
  | cons c cs ih =>
    obtain ⟨fuel, rfl⟩ := Nat.exists_eq_succ_of_ne_zero (Nat.ne_zero_of_lt hfuel)
    rw [List.flatMap_cons, List.append_assoc, readString_writeChar,
      ih (c :: done) (Nat.lt_of_succ_lt_succ hfuel), List.reverse_cons, List.append_assoc]
    rfl

theorem writeChar_ne_nil (style : Style) (c : Char) : writeChar style c ≠ [] := by
  unfold writeChar unitEscapes unitEscape
  repeat' split
  all_goals nofun

theorem length_le_length_flatMap (cs : List Char) :
    cs.length ≤ (cs.flatMap (writeChar .compact)).length := by
  induction cs with
  | nil => exact Nat.le_refl 0
  | cons c cs ih =>
    have hpos := List.length_pos_iff.2 (writeChar_ne_nil .compact c)
    rw [List.flatMap_cons, List.length_append, List.length_cons]
    omega

/-- A written string is read back after its opening quote. -/
theorem readString_writeString (s : String) (rest : List Char) {fuel : Nat} {cs : List Char}
    (hcs : writeString .compact s ++ rest = '"' :: cs) (hfuel : cs.length ≤ fuel) :
    readString fuel [] cs = some (s, rest) := by
  have hbody : s.toList.flatMap (writeChar .compact) ++ '"' :: rest = cs := by
    rw [writeString, List.cons_append, List.append_assoc] at hcs
    exact (List.cons.inj hcs).2
  have hlength := length_le_length_flatMap s.toList
  subst hbody
  rw [List.length_append, List.length_cons] at hfuel
  rw [readString_flatMap s.toList [] rest (by omega), List.reverse_nil, List.nil_append,
    String.ofList_toList]

/-! ## Whole numbers -/

/-- Whether no number goes on in a text. -/
def EndsNumber (cs : List Char) : Prop := ∀ c ∈ cs.head?, isNumberChar c = false

/-- The digits of a whole number, after a sign if it is negative. -/
theorem toList_toString (n : Int) : (toString n).toList =
    if 0 ≤ n then Nat.toDigits 10 n.toNat else '-' :: Nat.toDigits 10 (-n).toNat := by
  rw [Int.toString_eq_repr, Int.repr_eq_if]
  split
  · rw [Nat.toList_repr]
  · rw [String.toList_append, Nat.toList_repr]
    rfl

theorem isDigit_of_mem_toDigits {n : Nat} {c : Char} (h : c ∈ Nat.toDigits 10 n) :
    c.isDigit = true :=
  Nat.isDigit_of_mem_toDigits (by decide) (by decide) h

/-- Digits, after a minus or not, make a whole number. -/
theorem numberOf?_digits (n : Nat) :
    numberOf? (Nat.toDigits 10 n) = some (.int n) ∧
      numberOf? ('-' :: Nat.toDigits 10 n) = some (.int (-n)) := by
  have hdigits : (Nat.toDigits 10 n).all Char.isDigit = true :=
    List.all_eq_true.2 fun _ => isDigit_of_mem_toDigits
  have hvalue : Binary64.natOfDigits (Nat.toDigits 10 n) = n := Nat.ofDigitChars_ten_toDigits
  have hne : (Nat.toDigits 10 n).isEmpty = false := by
    rw [List.isEmpty_eq_false_iff]
    exact Nat.toDigits_ne_nil
  have hsign : Binary64.splitSign (Nat.toDigits 10 n) = (false, Nat.toDigits 10 n) := by
    unfold Binary64.splitSign
    split
    · rename_i rest hcons
      exact absurd (isDigit_of_mem_toDigits (hcons ▸ List.mem_cons_self)) (by decide)
    · rename_i rest hcons
      exact absurd (isDigit_of_mem_toDigits (hcons ▸ List.mem_cons_self)) (by decide)
    · rfl
  constructor
  · unfold numberOf?
    simp only [hsign, hne, hdigits, hvalue, if_true, Bool.false_eq_true, if_false]
  · unfold numberOf? Binary64.splitSign
    simp only [hne, hdigits, hvalue, if_true, Bool.false_eq_true, if_false]

theorem numberOf?_toString (n : Int) : numberOf? (toString n).toList = some (.int n) := by
  rw [toList_toString]
  split
  · rename_i h
    rw [(numberOf?_digits n.toNat).1, Int.toNat_of_nonneg h]
  · rename_i h
    rw [(numberOf?_digits (-n).toNat).2, Int.toNat_of_nonneg (by omega), Int.neg_neg]

theorem isNumberChar_of_mem_toString {n : Int} {c : Char} (h : c ∈ (toString n).toList) :
    isNumberChar c = true := by
  have hdigit {m : Nat} (hc : c ∈ Nat.toDigits 10 m) : isNumberChar c = true := by
    unfold isNumberChar
    rw [isDigit_of_mem_toDigits hc]
    rfl
  rw [toList_toString] at h
  split at h
  · exact hdigit h
  · rcases List.mem_cons.1 h with rfl | h
    · rfl
    · exact hdigit h

theorem ne_of_isDigit {a c : Char} (hc : c.isDigit = true) (ha : a.isDigit = false) : c ≠ a := by
  rintro rfl
  rw [ha] at hc
  cases hc

theorem exists_head_toString (n : Int) : ∃ c rest, (toString n).toList = c :: rest ∧
    (c.isDigit = true ∨ c = '-' ∧ ∃ d rest', rest = d :: rest' ∧ d.isDigit = true) := by
  have hdigits (m : Nat) : ∃ d rest, Nat.toDigits 10 m = d :: rest ∧ d.isDigit = true := by
    obtain ⟨d, rest, h⟩ := List.exists_cons_of_ne_nil (Nat.toDigits_ne_nil (n := m) (b := 10))
    exact ⟨d, rest, h, isDigit_of_mem_toDigits (h ▸ List.mem_cons_self)⟩
  rw [toList_toString]
  split
  · obtain ⟨d, rest, h, hd⟩ := hdigits n.toNat
    exact ⟨d, rest, h, Or.inl hd⟩
  · obtain ⟨d, rest, h, hd⟩ := hdigits (-n).toNat
    exact ⟨'-', _, rfl, Or.inr ⟨rfl, d, rest, h, hd⟩⟩

/-! ## Values -/

theorem isGap_of_isDigit {c : Char} (hc : c.isDigit = true) : isGap c = false := by
  have hne {a : Char} (ha : a.isDigit = false) : c ≠ a := ne_of_isDigit hc ha
  simp [isGap, hne (a := ' ') rfl, hne (a := '\n') rfl, hne (a := '\t') rfl, hne (a := '\r') rfl]

theorem skipGaps_cons {c : Char} (h : isGap c = false) (cs : List Char) :
    skipGaps (c :: cs) = c :: cs := by
  rw [skipGaps, List.dropWhile_cons_of_neg (by rw [h]; exact Bool.false_ne_true)]

/-- A whole number is read back if no number goes on behind it. -/
theorem readValue_toString (fuel : Nat) (n : Int) {rest : List Char} (hrest : EndsNumber rest) :
    readValue (fuel + 1) ((toString n).toList ++ rest) = some (.int n, rest) := by
  have hall : ∀ c ∈ (toString n).toList, isNumberChar c = true :=
    fun _ => isNumberChar_of_mem_toString
  have htake : ((toString n).toList ++ rest).takeWhile isNumberChar = (toString n).toList := by
    rw [List.takeWhile_append_of_pos hall]
    cases rest with
    | nil => rw [List.takeWhile_nil, List.append_nil]
    | cons c cs =>
      rw [List.takeWhile_cons_of_neg (by rw [hrest c rfl]; exact Bool.false_ne_true),
        List.append_nil]
  have hdrop : ((toString n).toList ++ rest).dropWhile isNumberChar = rest := by
    rw [List.dropWhile_append_of_pos hall]
    cases rest with
    | nil => rfl
    | cons c cs =>
      rw [List.dropWhile_cons_of_neg (by rw [hrest c rfl]; exact Bool.false_ne_true)]
  obtain ⟨c, tail, hcons, hstart⟩ := exists_head_toString n
  have hgap : isGap c = false := by
    rcases hstart with hc | ⟨rfl, -⟩
    · exact isGap_of_isDigit hc
    · rfl
  have hskip : skipGaps ((toString n).toList ++ rest) = (toString n).toList ++ rest := by
    rw [hcons, List.cons_append, skipGaps_cons hgap]
  -- no other value starts like a number
  have hother : ∀ a ∈ ['n', 't', 'f', '"', '[', '\x7b', 'N', 'I'], ∀ cs,
      (toString n).toList ++ rest ≠ a :: cs := by
    intro a ha cs h
    rw [hcons, List.cons_append] at h
    obtain rfl := (List.cons.inj h).1
    rcases hstart with hc | ⟨rfl, -⟩
    · have hletters :
          (['n', 't', 'f', '"', '[', '\x7b', 'N', 'I'].all fun a => !a.isDigit) = true := by decide
      have hdigit := List.all_eq_true.1 hletters _ ha
      exact absurd rfl (ne_of_isDigit hc (by simpa using hdigit))
    · exact absurd ha (by decide)
  have hinfinity : ∀ cs, (toString n).toList ++ rest ≠ '-' :: 'I' :: cs := by
    intro cs h
    rw [hcons, List.cons_append] at h
    obtain ⟨rfl, htail⟩ := List.cons.inj h
    rcases hstart with hc | ⟨-, d, tail', rfl, hd⟩
    · exact absurd hc (by decide)
    · rw [List.cons_append] at htail
      obtain rfl := (List.cons.inj htail).1
      exact absurd hd (by decide)
  rw [readValue, hskip]
  split
  case h_10 => rw [htake, hdrop, numberOf?_toString]; rfl
  case h_9 => exact absurd ‹_› (hinfinity _)
  all_goals exact absurd ‹_› (hother _ (by decide) _)

theorem endsNumber_cons {c : Char} (h : isNumberChar c = false) (cs : List Char) :
    EndsNumber (c :: cs) := by
  intro a ha
  obtain rfl := Option.mem_some.1 ha
  exact h

/-- No value starts with a gap or with the bracket that closes an array. -/
theorem exists_head_write {j : Json} (h : j.isExact = true) :
    ∃ c cs, write .compact j = c :: cs ∧ isGap c = false ∧ c ≠ ']' := by
  cases j with
  | null => exact ⟨_, _, rfl, rfl, by decide⟩
  | bool b => cases b <;> exact ⟨_, _, rfl, rfl, by decide⟩
  | str s => exact ⟨_, _, rfl, rfl, by decide⟩
  | arr items => exact ⟨_, _, rfl, rfl, by decide⟩
  | obj fields => exact ⟨_, _, rfl, rfl, by decide⟩
  | table rows => cases h
  | num n =>
    cases n with
    | float x => cases h
    | int n =>
      obtain ⟨c, cs, hcons, hc | ⟨rfl, -⟩⟩ := exists_head_toString n
      · exact ⟨c, cs, hcons, isGap_of_isDigit hc, ne_of_isDigit hc (by decide)⟩
      · exact ⟨_, cs, hcons, rfl, by decide⟩

theorem readValue_bracket (fuel : Nat) {c : Char} (hgap : isGap c = false) (hc : c ≠ ']')
    (cs : List Char) : readValue (fuel + 1) ('[' :: c :: cs) =
      (readItems fuel (c :: cs)).map fun r => (.arr r.1, r.2) := by
  rw [readValue, skipGaps_cons rfl]
  simp only [skipGaps_cons hgap]
  split
  · rename_i hcons
    exact absurd (List.cons.inj hcons).1 hc
  · rfl

section Steps

variable {fuel : Nat} {cs : List Char} {v : Json}

/-- An item before the closing bracket is the last one. -/
theorem readItems_last {rest : List Char} (h : readValue fuel cs = some (v, ']' :: rest)) :
    readItems (fuel + 1) cs = some ([v], rest) := by
  rw [readItems, h]
  rfl

/-- Behind a comma the items go on. -/
theorem readItems_more {rest rest' : List Char} {vs : List Json}
    (h : readValue fuel cs = some (v, ',' :: rest))
    (hrest : readItems fuel rest = some (vs, rest')) :
    readItems (fuel + 1) cs = some (v :: vs, rest') := by
  rw [readItems, h]
  show (readItems fuel rest).bind (fun r => some (v :: r.1, r.2)) = _
  rw [hrest]
  rfl

variable {k : String} {text : List Char}

theorem readFields_last {rest : List Char}
    (hkey : readString text.length [] text = some (k, ':' :: cs))
    (h : readValue fuel cs = some (v, '\x7d' :: rest)) :
    readFields (fuel + 1) ('"' :: text) = some ([(k, v)], rest) := by
  rw [readFields, skipGaps_cons rfl]
  simp only [hkey]
  show (readValue fuel cs).bind _ = _
  rw [h]
  rfl

theorem readFields_more {rest rest' : List Char} {fs : List (String × Json)}
    (hkey : readString text.length [] text = some (k, ':' :: cs))
    (h : readValue fuel cs = some (v, ',' :: rest))
    (hrest : readFields fuel rest = some (fs, rest')) :
    readFields (fuel + 1) ('"' :: text) = some ((k, v) :: fs, rest') := by
  rw [readFields, skipGaps_cons rfl]
  simp only [hkey]
  show (readValue fuel cs).bind _ = _
  rw [h]
  show (readFields fuel rest).bind (fun r => some ((k, v) :: r.1, r.2)) = _
  rw [hrest]
  rfl

end Steps

/-- The text between the brackets of an array. -/
def itemsText (items : List Json) : List Char :=
  joinChars Style.compact.comma (writeItems .compact items)

/-- The text between the braces of an object. -/
def fieldsText (fields : List (String × Json)) : List Char :=
  joinChars Style.compact.comma (writeFields .compact fields)

theorem write_arr (items : List Json) (rest : List Char) :
    write .compact (.arr items) ++ rest = '[' :: (itemsText items ++ ']' :: rest) := by
  rw [write, List.cons_append, List.append_assoc]
  rfl

theorem write_obj (fields : List (String × Json)) (rest : List Char) :
    write .compact (.obj fields) ++ rest = '\x7b' :: (fieldsText fields ++ '\x7d' :: rest) := by
  rw [write, List.cons_append, List.append_assoc]
  rfl

theorem itemsText_cons (v w : Json) (ws : List Json) :
    itemsText (v :: w :: ws) = write .compact v ++ ',' :: itemsText (w :: ws) :=
  List.append_assoc _ _ _

/-- What is written of a field after its opening quote. -/
def fieldTail (f : String × Json) : List Char :=
  f.1.toList.flatMap (writeChar .compact) ++ '"' :: ':' :: write .compact f.2

theorem fieldsText_singleton (f : String × Json) : fieldsText [f] = '"' :: fieldTail f := by
  show writeString .compact f.1 ++ [':'] ++ write .compact f.2 = _
  rw [writeString, fieldTail, List.append_assoc, List.cons_append, List.append_assoc]
  rfl

theorem fieldsText_cons (f g : String × Json) (rest : List (String × Json)) :
    fieldsText (f :: g :: rest) = '"' :: (fieldTail f ++ ',' :: fieldsText (g :: rest)) := by
  have hcons : fieldsText (f :: g :: rest) = fieldsText [f] ++ ([','] ++ fieldsText (g :: rest)) :=
    List.append_assoc _ _ _
  rw [hcons, fieldsText_singleton]
  rfl

/-- The key of a field is read back from what follows its opening quote. -/
theorem readString_fieldTail (f : String × Json) (rest : List Char) :
    readString (fieldTail f ++ rest).length [] (fieldTail f ++ rest) =
      some (f.1, ':' :: (write .compact f.2 ++ rest)) := by
  have htail : writeString .compact f.1 ++ ':' :: (write .compact f.2 ++ rest) =
      '"' :: (fieldTail f ++ rest) := by
    rw [writeString, fieldTail, List.cons_append, List.append_assoc, List.append_assoc]
    rfl
  exact readString_writeString f.1 _ htail (Nat.le_refl _)

mutual

/-- A value is read back, and the reading stops where the value does. -/
theorem readValue_write : ∀ (j : Json) (fuel : Nat) (rest : List Char), j.isExact = true →
    (write .compact j).length < fuel → EndsNumber rest →
      readValue fuel (write .compact j ++ rest) = some (j, rest)
  | _, 0, _, _, hfuel, _ => absurd hfuel (Nat.not_lt_zero _)
  | .null, _ + 1, _, _, _, _ => rfl
  | .bool true, _ + 1, _, _, _, _ => rfl
  | .bool false, _ + 1, _, _, _, _ => rfl
  | .num (.int n), fuel + 1, _, _, _, hrest => readValue_toString fuel n hrest
  | .str s, fuel + 1, rest, _, _, _ => by
    have hread := readString_writeString s rest rfl (Nat.le_refl _)
    show (readString _ [] _).map (fun r => (Json.str r.1, r.2)) = _
    rw [hread]
    rfl
  | .arr [], _ + 1, _, _, _, _ => rfl
  | .arr (v :: vs), fuel + 1, rest, h, hfuel, _ => by
    rw [isExact] at h
    have hlength := congrArg List.length (write_arr (v :: vs) [])
    simp only [List.append_nil, List.length_cons, List.length_append, List.length_nil] at hlength
    have hitems := readItems_write v vs fuel rest h (by omega)
    -- the brackets are not those of an empty array
    rw [isExactAll, Bool.and_eq_true] at h
    obtain ⟨c, cs, hhead, hgap, hc⟩ := exists_head_write h.1
    obtain ⟨tail, htail⟩ : ∃ tail, itemsText (v :: vs) ++ ']' :: rest = c :: tail := by
      cases vs with
      | nil => exact ⟨cs ++ ']' :: rest, congrArg (· ++ ']' :: rest) hhead⟩
      | cons w ws => exact ⟨_, by rw [itemsText_cons, hhead]; rfl⟩
    rw [write_arr, htail, readValue_bracket fuel hgap hc, ← htail, hitems]
    rfl
  | .obj [], _ + 1, _, _, _, _ => rfl
  | .obj (f :: fs), fuel + 1, rest, h, hfuel, _ => by
    rw [isExact] at h
    have hlength := congrArg List.length (write_obj (f :: fs) [])
    simp only [List.append_nil, List.length_cons, List.length_append, List.length_nil] at hlength
    have hfields := readFields_write f fs fuel rest h (by omega)
    obtain ⟨tail, htail⟩ : ∃ tail, fieldsText (f :: fs) ++ '\x7d' :: rest = '"' :: tail := by
      cases fs with
      | nil => exact ⟨_, by rw [fieldsText_singleton]; rfl⟩
      | cons g gs => exact ⟨_, by rw [fieldsText_cons]; rfl⟩
    rw [write_obj, htail]
    show (readFields fuel ('"' :: tail)).map (fun r => (Json.obj r.1, r.2)) = _
    rw [← htail, hfields]
    rfl

theorem readItems_write : ∀ (v : Json) (vs : List Json) (fuel : Nat) (rest : List Char),
    isExactAll (v :: vs) = true → (itemsText (v :: vs)).length + 1 < fuel →
      readItems fuel (itemsText (v :: vs) ++ ']' :: rest) = some (v :: vs, rest)
  | _, _, 0, _, _, hfuel => absurd hfuel (Nat.not_lt_zero _)
  | v, [], fuel + 1, rest, h, hfuel => by
    rw [isExactAll, Bool.and_eq_true] at h
    exact readItems_last (readValue_write v _ _ h.1 (Nat.lt_of_succ_lt_succ hfuel)
      (endsNumber_cons rfl rest))
  | v, w :: ws, fuel + 1, rest, h, hfuel => by
    rw [isExactAll, Bool.and_eq_true] at h
    rw [itemsText_cons, List.length_append, List.length_cons] at hfuel
    have hitems := readItems_write w ws fuel rest h.2 (by omega)
    rw [itemsText_cons, List.append_assoc, List.cons_append]
    exact readItems_more (readValue_write v _ _ h.1 (by omega) (endsNumber_cons rfl _)) hitems

theorem readFields_write : ∀ (f : String × Json) (fs : List (String × Json)) (fuel : Nat)
    (rest : List Char), isExactFields (f :: fs) = true →
      (fieldsText (f :: fs)).length + 1 < fuel →
        readFields fuel (fieldsText (f :: fs) ++ '\x7d' :: rest) = some (f :: fs, rest)
  | _, _, 0, _, _, hfuel => absurd hfuel (Nat.not_lt_zero _)
  | (k, v), [], fuel + 1, rest, h, hfuel => by
    rw [isExactFields, Bool.and_eq_true] at h
    rw [fieldsText_singleton, fieldTail, List.length_cons, List.length_append] at hfuel
    simp only [List.length_cons] at hfuel
    rw [fieldsText_singleton, List.cons_append]
    exact readFields_last (readString_fieldTail (k, v) _)
      (readValue_write v _ _ h.1 (by omega) (endsNumber_cons rfl rest))
  | (k, v), g :: gs, fuel + 1, rest, h, hfuel => by
    rw [isExactFields, Bool.and_eq_true] at h
    rw [fieldsText_cons, fieldTail] at hfuel
    simp only [List.length_cons, List.length_append] at hfuel
    have hfields := readFields_write g gs fuel rest h.2 (by omega)
    rw [fieldsText_cons, List.cons_append, List.append_assoc, List.cons_append]
    exact readFields_more (readString_fieldTail (k, v) _)
      (readValue_write v _ _ h.1 (by omega) (endsNumber_cons rfl _)) hfields

end

/-- A value without floating-point numbers and tables is read back from its text. -/
theorem read?_compactText {j : Json} (h : j.isExact = true) : read? (compactText j) = some j := by
  have hread := readValue_write j _ [] h (Nat.lt_succ_self _) nofun
  rw [List.append_nil] at hread
  unfold read? compactText
  simp only [String.toList_ofList, hread]
  rfl

theorem compactText_injective {a b : Json} (ha : a.isExact = true) (hb : b.isExact = true)
    (h : compactText a = compactText b) : a = b := by
  have hread := read?_compactText ha
  rw [h, read?_compactText hb] at hread
  exact (Option.some.inj hread).symm

end ChartLowering.Json
