import ChartLowering.Json.Reader

/-
  String literals of the expressions that are written.

  The runtime reads expressions as JavaScript does. A string literal stands between two quotes of
  one kind and denotes a sequence of 16-bit units; a backslash opens an escape. `Denotes` is this
  reading, legacy octal escapes and line continuations included; it reads a literal in one way only
  (`Body.unique`). An escape denotes no more units than are written after its backslash, so a text
  between quotes denotes itself exactly if it has no backslash, no line end and not the quote itself
  (`denotes_enclosed_iff`).
-/

namespace ChartLowering.Text

/-- The 16-bit units of a code point; one beyond the first 16 bits has two. -/
def unitsOfCode (n : Nat) : List Nat :=
  if n < 0x10000 then [n]
  else [0xd800 + (n - 0x10000) / 0x400, 0xdc00 + (n - 0x10000) % 0x400]

/-- The 16-bit units of characters. -/
def unitsOf (cs : List Char) : List Nat := cs.flatMap fun c => unitsOfCode c.toNat

theorem length_unitsOfCode (n : Nat) :
    1 ≤ (unitsOfCode n).length ∧ (unitsOfCode n).length ≤ 2 := by
  unfold unitsOfCode
  split <;> simp

@[simp] theorem unitsOf_cons (c : Char) (cs : List Char) :
    unitsOf (c :: cs) = unitsOfCode c.toNat ++ unitsOf cs := rfl

@[simp] theorem unitsOf_append (cs ds : List Char) :
    unitsOf (cs ++ ds) = unitsOf cs ++ unitsOf ds := List.flatMap_append

theorem length_unitsOf_le {cs ds : List Char} (h : cs <:+ ds) :
    (unitsOf cs).length ≤ (unitsOf ds).length := by
  obtain ⟨before, rfl⟩ := h
  rw [unitsOf_append, List.length_append]
  exact Nat.le_add_left _ _

namespace Literal

/-! ## Escapes -/

/-- The letters that stand for a control character, with its code. -/
def controls : List (Char × Nat) :=
  [('b', 8), ('t', 9), ('n', 10), ('v', 11), ('f', 12), ('r', 13)]

def isOctal (c : Char) : Bool := decide ('0' ≤ c ∧ c ≤ '7')

/-- Whether a character ends a line; two of them may stand in a literal without a backslash. -/
def isLineEnd (c : Char) : Bool := c == '\n' || c == '\r' || c == '\u2028' || c == '\u2029'

/-- The number of hexadecimal digits. -/
def hexNumber? (ds : List Char) : Option Nat :=
  ds.foldlM (fun n c => (Json.hexValue? c).map (16 * n + ·)) 0

/-- The unit of a fixed number of hexadecimal digits, and what follows them. -/
def fixed? (count : Nat) (cs : List Char) : Option (List Nat × List Char) :=
  if cs.length < count then none
  else (hexNumber? (cs.take count)).map fun n => ([n], cs.drop count)

/-- The code point of hexadecimal digits up to a closing brace, and what follows it. -/
def braced? (cs : List Char) : Option (List Nat × List Char) :=
  let ds := cs.takeWhile (· != '\x7d')
  match cs.dropWhile (· != '\x7d') with
  | [] => none
  | _ :: rest =>
    if ds.isEmpty then none
    else ((hexNumber? ds).filter (· ≤ 0x10ffff)).map fun n => (unitsOfCode n, rest)

/-- The unit of at most three octal digits, or two if the first one is above 3, and what follows. -/
def octal (cs : List Char) : List Nat × List Char :=
  let count := if cs.head?.any (· ≤ '3') then 3 else 2
  let ds := (cs.take count).takeWhile isOctal
  ([ds.foldl (fun n c => 8 * n + (c.toNat - '0'.toNat)) 0], cs.drop ds.length)

/-- A code point in braces or in four digits. -/
def codePoint? : List Char → Option (List Nat × List Char)
  | '\x7b' :: rest => braced? rest
  | cs => fixed? 4 cs

/-- What follows a line end, of which a return and a feed are one. -/
def nextLine (c : Char) (rest : List Char) : List Char :=
  if c = '\r' ∧ rest.head? = some '\n' then rest.tail else rest

/-- What the characters after a backslash stand for, and what follows the escape. A line end stands
for nothing, and a character without a meaning of its own for itself. -/
def escape? : List Char → Option (List Nat × List Char)
  | [] => none
  | c :: rest =>
    if c = 'x' then fixed? 2 rest
    else if c = 'u' then codePoint? rest
    else if isLineEnd c then some ([], nextLine c rest)
    else if isOctal c then some (octal (c :: rest))
    else some ((controls.lookup c).elim (unitsOfCode c.toNat) ([·]), rest)

/-- The units that are read up to the quote at the end. -/
inductive Body (quote : Char) : List Char → List Nat → Prop where
  | close : Body quote [quote] []
  | escape {cs rest : List Char} {us vs : List Nat} (he : escape? cs = some (us, rest))
      (h : Body quote rest vs) : Body quote ('\\' :: cs) (us ++ vs)
  | char {c : Char} {cs : List Char} {us : List Nat} (hquote : c ≠ quote) (hslash : c ≠ '\\')
      (hfeed : c ≠ '\n') (hreturn : c ≠ '\r') (h : Body quote cs us) :
      Body quote (c :: cs) (unitsOfCode c.toNat ++ us)

/-- Whether a text is one literal between quotes of a kind, of which the value is a given text. -/
def Denotes (quote : Char) (literal name : String) : Prop :=
  ∃ cs, literal.toList = quote :: cs ∧ Body quote cs (unitsOf name.toList)

/-- Whether a text has nothing that ends a literal or is changed in it. -/
def IsPlain (quote : Char) (name : String) : Prop :=
  ∀ c ∈ name.toList, c ≠ quote ∧ c ≠ '\\' ∧ c ≠ '\n' ∧ c ≠ '\r'

instance (quote : Char) (name : String) : Decidable (IsPlain quote name) :=
  List.decidableBAll _ name.toList

theorem length_fixed? {count : Nat} {cs rest : List Char} {us : List Nat}
    (h : fixed? count cs = some (us, rest)) :
    us.length + (unitsOf rest).length ≤ 1 + (unitsOf cs).length := by
  unfold fixed? at h
  split at h
  · cases h
  · obtain ⟨n, -, h⟩ := Option.map_eq_some_iff.1 h
    cases h
    exact Nat.add_le_add_left (length_unitsOf_le (List.drop_suffix _ _)) 1

theorem length_braced? {cs rest : List Char} {us : List Nat} (h : braced? cs = some (us, rest)) :
    us.length + (unitsOf rest).length ≤ 2 + (unitsOf cs).length := by
  unfold braced? at h
  simp only at h
  split at h
  · cases h
  · rename_i brace after hdrop
    have hrest : after <:+ cs :=
      (List.suffix_cons brace after).trans (hdrop ▸ List.dropWhile_suffix _)
    split at h
    · cases h
    · obtain ⟨n, -, h⟩ := Option.map_eq_some_iff.1 h
      cases h
      exact Nat.add_le_add (length_unitsOfCode n).2 (length_unitsOf_le hrest)

theorem length_codePoint? {cs rest : List Char} {us : List Nat}
    (h : codePoint? cs = some (us, rest)) :
    us.length + (unitsOf rest).length ≤ 1 + (unitsOf cs).length := by
  unfold codePoint? at h
  split at h
  · rename_i after
    have hbraced := length_braced? h
    have hbrace := length_unitsOfCode '\x7b'.toNat
    rw [unitsOf_cons, List.length_append]
    omega
  · exact length_fixed? h

theorem length_octal {c : Char} (hc : isOctal c = true) (cs : List Char) :
    (octal (c :: cs)).1.length = 1 ∧ (octal (c :: cs)).2 <:+ cs := by
  refine ⟨rfl, ?_⟩
  -- the first character is one of the digits
  have hdigits : ∀ count, 0 < count → ((c :: cs).take count).takeWhile isOctal =
      c :: (cs.take (count - 1)).takeWhile isOctal := by
    intro count hcount
    obtain ⟨n, rfl⟩ := Nat.exists_eq_succ_of_ne_zero (Nat.ne_of_gt hcount)
    rw [List.take_succ_cons, List.takeWhile_cons_of_pos hc]
    rfl
  have hcount : 0 < if (c :: cs).head?.any (· ≤ '3') then 3 else 2 := by split <;> decide
  show (c :: cs).drop (((c :: cs).take _).takeWhile isOctal).length <:+ cs
  rw [hdigits _ hcount, List.length_cons, List.drop_succ_cons]
  exact List.drop_suffix _ _

/-- An escape stands for no more units than it takes. -/
theorem length_escape? {cs rest : List Char} {us : List Nat} (h : escape? cs = some (us, rest)) :
    us.length + (unitsOf rest).length ≤ (unitsOf cs).length := by
  cases cs with
  | nil => cases h
  | cons c cs =>
    have hc := length_unitsOfCode c.toNat
    rw [unitsOf_cons, List.length_append]
    rw [escape?] at h
    split at h
    · have hfixed := length_fixed? h
      omega
    split at h
    · have hcode := length_codePoint? h
      omega
    split at h
    · have hnext : nextLine c cs <:+ cs := by
        unfold nextLine
        split
        · exact List.tail_suffix cs
        · exact List.suffix_rfl
      cases h
      exact Nat.add_le_add (Nat.zero_le _) (length_unitsOf_le hnext)
    split at h
    · rename_i hoctal
      obtain ⟨hone, hsuffix⟩ := length_octal hoctal cs
      simp only [Option.some.inj h] at hone hsuffix
      have hrest := length_unitsOf_le hsuffix
      omega
    · cases h
      refine Nat.add_le_add_right ?_ _
      cases controls.lookup c with
      | none => exact Nat.le_refl _
      | some n => exact hc.1

variable {quote : Char}

/-- What is read is no longer than what is written before the quote at the end. -/
theorem Body.length_le {cs : List Char} {us : List Nat} (h : Body quote cs us) :
    us.length + (unitsOf [quote]).length ≤ (unitsOf cs).length := by
  induction h with
  | close => exact Nat.le_of_eq (Nat.zero_add _)
  | escape he h ih =>
    have hescape := length_escape? he
    rw [List.length_append, unitsOf_cons '\\', List.length_append]
    omega
  | @char c cs us hquote hslash hfeed hreturn h ih =>
    rw [List.length_append, unitsOf_cons c, List.length_append]
    omega

/-- A literal is read in one way only. -/
theorem Body.unique (hquote : quote ≠ '\\') {cs : List Char} {us vs : List Nat}
    (h : Body quote cs us) (h' : Body quote cs vs) : us = vs := by
  induction h generalizing vs with
  | close =>
    cases h' with
    | close => rfl
    | escape => exact absurd rfl hquote
    | char hne => exact absurd rfl hne
  | escape he h ih =>
    cases h' with
    | close => exact absurd rfl hquote
    | escape he' h' =>
      cases he.symm.trans he'
      rw [ih h']
    | char _ hne => exact absurd rfl hne
  | char hne hslash _ _ h ih =>
    cases h' with
    | close => exact absurd rfl hne
    | escape => exact absurd rfl hslash
    | char _ _ _ _ h' => rw [ih h']

/-! ## Texts between quotes -/

/-- A text that is read as no fewer units than it has is read as it is. -/
theorem Body.isPlain {cs : List Char} {us : List Nat} (h : Body quote (cs ++ [quote]) us)
    (hlength : (unitsOf cs).length ≤ us.length) :
    ∀ c ∈ cs, c ≠ quote ∧ c ≠ '\\' ∧ c ≠ '\n' ∧ c ≠ '\r' := by
  induction cs generalizing us with
  | nil => exact fun c hc => absurd hc List.not_mem_nil
  | cons c cs ih =>
    generalize hds : c :: cs ++ [quote] = ds at h
    cases h with
    | close => simp at hds
    | @escape ds rest us vs he h =>
      obtain ⟨rfl, rfl⟩ := List.cons.inj hds
      -- the backslash is a unit that is not read
      have hescape : _ ≤ (unitsOf (cs ++ [quote])).length := length_escape? he
      have hrest := h.length_le
      have hslash := (length_unitsOfCode '\\'.toNat).1
      rw [unitsOf_append, List.length_append] at hescape
      rw [unitsOf_cons '\\', List.length_append, List.length_append] at hlength
      omega
    | char hquote hslash hfeed hreturn h =>
      obtain ⟨rfl, rfl⟩ := List.cons.inj hds
      rw [unitsOf_cons, List.length_append, List.length_append] at hlength
      have hrest := ih h (Nat.le_of_add_le_add_left hlength)
      exact List.forall_mem_cons.2 ⟨⟨hquote, hslash, hfeed, hreturn⟩, hrest⟩

theorem body_of_isPlain {cs : List Char}
    (h : ∀ c ∈ cs, c ≠ quote ∧ c ≠ '\\' ∧ c ≠ '\n' ∧ c ≠ '\r') :
    Body quote (cs ++ [quote]) (unitsOf cs) := by
  induction cs with
  | nil => exact .close
  | cons c cs ih =>
    obtain ⟨⟨hquote, hslash, hfeed, hreturn⟩, hcs⟩ := List.forall_mem_cons.1 h
    exact .char hquote hslash hfeed hreturn (ih hcs)

/-- A text between two quotes, as it is. -/
def enclosed (quote : Char) (name : String) : String :=
  String.ofList (quote :: (name.toList ++ [quote]))

/-- A name between an opening that ends in a quote and a close that begins with one. -/
theorem append_enclosed {before after opening close : String}
    (hopening : opening = before ++ String.singleton quote)
    (hclose : close = String.singleton quote ++ after) (name : String) :
    opening ++ name ++ close = before ++ enclosed quote name ++ after := by
  have henclosed : enclosed quote name =
      String.singleton quote ++ name ++ String.singleton quote := by
    apply String.toList_injective
    simp [enclosed]
  rw [hopening, hclose, henclosed]
  simp only [String.append_assoc]

/-- A text between quotes denotes itself exactly if it is plain. -/
theorem denotes_enclosed_iff (quote : Char) (name : String) :
    Denotes quote (enclosed quote name) name ↔ IsPlain quote name := by
  unfold Denotes enclosed
  rw [String.toList_ofList]
  constructor
  · rintro ⟨cs, hcs, h⟩
    rw [← (List.cons.inj hcs).2] at h
    exact h.isPlain (Nat.le_refl _)
  · exact fun h => ⟨_, rfl, body_of_isPlain h⟩

end Literal

end ChartLowering.Text
