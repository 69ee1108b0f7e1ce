/-
  Maps that remember the order in which their keys were first put.

  A map is its list of entries. Putting a key that is present changes the value in place, so the
  order of a map is the order of first insertion: the order in which a chart names its channels,
  a registry its datasets, and a view its components. `get?_insert` and `keys_insert` say what an
  insertion does to the values and to the order; `get?_overlay` says that an overlay wins.
-/

namespace ChartLowering

universe u v w

/-- Entries in the order in which their keys were first put. -/
structure OrderedMap (κ : Type u) (α : Type v) where
  entries : List (κ × α)
deriving Repr, DecidableEq

namespace OrderedMap

variable {κ : Type u} {α : Type v}

instance : Inhabited (OrderedMap κ α) := ⟨⟨[]⟩⟩

def empty : OrderedMap κ α := ⟨[]⟩

def isEmpty (m : OrderedMap κ α) : Bool := m.entries.isEmpty

def size (m : OrderedMap κ α) : Nat := m.entries.length

def keys (m : OrderedMap κ α) : List κ := m.entries.map Prod.fst

def values (m : OrderedMap κ α) : List α := m.entries.map Prod.snd

/-- The value of the first entry with key `k`. -/
def find? [DecidableEq κ] (k : κ) : List (κ × α) → Option α
  | [] => none
  | (k', a) :: rest => if k = k' then some a else find? k rest

def get? [DecidableEq κ] (m : OrderedMap κ α) (k : κ) : Option α := find? k m.entries

def contains [DecidableEq κ] (m : OrderedMap κ α) (k : κ) : Bool := (m.get? k).isSome

/-- Replaces the value of `k` where it stands, or adds the entry at the end. -/
def put [DecidableEq κ] (k : κ) (a : α) : List (κ × α) → List (κ × α)
  | [] => [(k, a)]
  | (k', b) :: rest => if k = k' then (k', a) :: rest else (k', b) :: put k a rest

def insert [DecidableEq κ] (m : OrderedMap κ α) (k : κ) (a : α) : OrderedMap κ α :=
  ⟨put k a m.entries⟩

/-- Adds an entry only for a key that has none. -/
def insertIfNew [DecidableEq κ] (m : OrderedMap κ α) (k : κ) (a : α) : OrderedMap κ α :=
  if m.contains k then m else m.insert k a

/-- Replaces the value of a key that has one; an unknown key is left unknown. -/
def replace [DecidableEq κ] (m : OrderedMap κ α) (k : κ) (a : α) : OrderedMap κ α :=
  if m.contains k then m.insert k a else m

/-- The entries whose key passes the test. -/
def filterKeys (m : OrderedMap κ α) (p : κ → Bool) : OrderedMap κ α :=
  ⟨m.entries.filter fun e => p e.1⟩

def mapValues {β : Type w} (f : α → β) (m : OrderedMap κ α) : OrderedMap κ β :=
  ⟨m.entries.map fun e => (e.1, f e.2)⟩

/-- The first map with every entry of the second put into it, in order. -/
def overlay [DecidableEq κ] (m top : OrderedMap κ α) : OrderedMap κ α :=
  top.entries.foldl (fun acc e => acc.insert e.1 e.2) m

def ofList [DecidableEq κ] (l : List (κ × α)) : OrderedMap κ α :=
  overlay empty ⟨l⟩

/-! ## What the operations do to look-ups and to the order -/

@[simp] theorem keys_mapValues {β : Type w} (f : α → β) (m : OrderedMap κ α) :
    (m.mapValues f).keys = m.keys := by
  simp [keys, mapValues, Function.comp_def]

theorem nodup_keys_filterKeys {m : OrderedMap κ α} (h : m.keys.Nodup) (p : κ → Bool) :
    (m.filterKeys p).keys.Nodup := by
  unfold keys filterKeys at *
  exact h.sublist (List.filter_sublist.map Prod.fst)

theorem filterKeys_comm (m : OrderedMap κ α) (p q : κ → Bool) :
    (m.filterKeys p).filterKeys q = (m.filterKeys q).filterKeys p := by
  unfold filterKeys
  simp only [List.filter_filter, Bool.and_comm]

section Laws

variable [DecidableEq κ]

theorem get?_cons_self (k : κ) (a : α) (rest : List (κ × α)) :
    (OrderedMap.mk ((k, a) :: rest)).get? k = some a := by
  simp [get?, find?]

theorem find?_put (k j : κ) (a : α) (l : List (κ × α)) :
    find? j (put k a l) = if j = k then some a else find? j l := by
  induction l with
  | nil => rfl
  | cons e rest ih =>
    obtain ⟨k', b⟩ := e
    by_cases h : k = k'
    · subst h
      by_cases hj : j = k <;> simp [put, find?, hj]
    · by_cases hj : j = k'
      · subst hj
        have : ¬ j = k := fun e => h e.symm
        simp [put, find?, h, this]
      · simp [put, find?, h, hj, ih]

theorem get?_insert (m : OrderedMap κ α) (k j : κ) (a : α) :
    (m.insert k a).get? j = if j = k then some a else m.get? j :=
  find?_put k j a m.entries

@[simp] theorem get?_insert_self (m : OrderedMap κ α) (k : κ) (a : α) :
    (m.insert k a).get? k = some a := by
  simp [get?_insert]

theorem get?_insert_of_ne (m : OrderedMap κ α) {k j : κ} (a : α) (h : j ≠ k) :
    (m.insert k a).get? j = m.get? j := by
  simp [get?_insert, h]

theorem find?_isSome (k : κ) (l : List (κ × α)) :
    (find? k l).isSome = true ↔ k ∈ l.map Prod.fst := by
  induction l with
  | nil => simp [find?]
  | cons e rest ih =>
    obtain ⟨k', b⟩ := e
    by_cases h : k = k'
    · simp [find?, h]
    · simp [find?, h, ih]

theorem contains_iff_mem_keys (m : OrderedMap κ α) (k : κ) :
    m.contains k = true ↔ k ∈ m.keys :=
  find?_isSome k m.entries

theorem map_fst_put (k : κ) (a : α) (l : List (κ × α)) :
    (put k a l).map Prod.fst =
      if k ∈ l.map Prod.fst then l.map Prod.fst else l.map Prod.fst ++ [k] := by
  induction l with
  | nil => rfl
  | cons e rest ih =>
    obtain ⟨k', b⟩ := e
    by_cases h : k = k'
    · simp [put, h]
    · have hne : ¬ k = k' := h
      by_cases hm : k ∈ rest.map Prod.fst
      · rw [if_pos hm] at ih
        have : k ∈ ((k', b) :: rest).map Prod.fst := by
          simp only [List.map_cons, List.mem_cons]; exact Or.inr hm
        rw [if_pos this]
        simp only [put, if_neg h, List.map_cons, ih]
      · rw [if_neg hm] at ih
        have : ¬ k ∈ ((k', b) :: rest).map Prod.fst := by
          simp only [List.map_cons, List.mem_cons, not_or]; exact ⟨hne, hm⟩
        rw [if_neg this]
        simp only [put, if_neg h, List.map_cons, ih, List.cons_append]

/-- A present key keeps its place; a new key goes to the end. -/
theorem keys_insert (m : OrderedMap κ α) (k : κ) (a : α) :
    (m.insert k a).keys = if k ∈ m.keys then m.keys else m.keys ++ [k] :=
  map_fst_put k a m.entries

theorem nodup_keys_insert {m : OrderedMap κ α} (h : m.keys.Nodup) (k : κ) (a : α) :
    (m.insert k a).keys.Nodup := by
  rw [keys_insert]
  split
  · exact h
  · rename_i hk
    refine List.nodup_append.2 ⟨h, by simp, ?_⟩
    intro x hx y hy
    simp only [List.mem_singleton] at hy
    subst hy
    exact fun e => hk (e ▸ hx)

theorem foldl_insert_get? (l : List (κ × α)) (hl : (l.map Prod.fst).Nodup) (m : OrderedMap κ α)
    (j : κ) :
    (l.foldl (fun acc e => acc.insert e.1 e.2) m).get? j = (find? j l).or (m.get? j) := by
  induction l generalizing m with
  | nil => rfl
  | cons e rest ih =>
    obtain ⟨k, a⟩ := e
    simp only [List.map_cons, List.nodup_cons] at hl
    simp only [List.foldl_cons]
    rw [ih hl.2, get?_insert]
    by_cases h : j = k
    · subst h
      have : find? j rest = none := by
        cases hf : find? j rest with
        | none => rfl
        | some b =>
          have := (find?_isSome j rest).1 (by rw [hf]; rfl)
          exact absurd this hl.1
      simp [find?, this]
    · simp [find?, h]

/-- The first value that is added for a key stays. -/
theorem get?_insertIfNew (m : OrderedMap κ α) (k j : κ) (a : α) :
    (m.insertIfNew k a).get? j = if j = k then (m.get? k).or (some a) else m.get? j := by
  unfold insertIfNew
  cases h : m.get? k with
  | none => simp [contains, h, get?_insert]
  | some b =>
    by_cases hj : j = k
    · subst hj; simp [contains, h]
    · simp [contains, h, hj]

/-- Only a key that has a value gets another one. -/
theorem get?_replace (m : OrderedMap κ α) (k j : κ) (a : α) :
    (m.replace k a).get? j = if j = k then (m.get? k).map (fun _ => a) else m.get? j := by
  unfold replace
  cases h : m.get? k with
  | none =>
    by_cases hj : j = k
    · subst hj; simp [contains, h]
    · simp [contains, h, hj]
  | some b => simp [contains, h, get?_insert]

/-- In an overlay the second map wins wherever it has an entry. -/
theorem get?_overlay (m top : OrderedMap κ α) (h : top.keys.Nodup) (j : κ) :
    (m.overlay top).get? j = (top.get? j).or (m.get? j) :=
  foldl_insert_get? top.entries h m j

theorem get?_overlay_of_some {m top : OrderedMap κ α} (h : top.keys.Nodup) {k : κ} {a : α}
    (hk : top.get? k = some a) : (m.overlay top).get? k = some a := by
  rw [get?_overlay m top h, hk]
  rfl

/-- An overlay that has no entry for a key leaves its value. -/
theorem get?_overlay_of_notMem (m top : OrderedMap κ α) {j : κ} (h : j ∉ top.keys) :
    (m.overlay top).get? j = m.get? j := by
  obtain ⟨l⟩ := top
  have hl : j ∉ l.map Prod.fst := h
  show (l.foldl (fun acc e => acc.insert e.1 e.2) m).get? j = m.get? j
  clear h
  induction l generalizing m with
  | nil => rfl
  | cons e rest ih =>
    rw [List.map_cons, List.mem_cons, not_or] at hl
    rw [List.foldl_cons, ih _ hl.2, get?_insert_of_ne m e.2 hl.1]

/-- A value of an overlay comes from one of the two maps. -/
theorem get?_overlay_cases {m top : OrderedMap κ α} {k : κ} {a : α}
    (h : (m.overlay top).get? k = some a) : m.get? k = some a ∨ (k, a) ∈ top.entries := by
  obtain ⟨l⟩ := top
  change (l.foldl (fun acc e => acc.insert e.1 e.2) m).get? k = some a at h
  show _ ∨ (k, a) ∈ l
  induction l generalizing m with
  | nil => exact Or.inl h
  | cons e rest ih =>
    rcases ih h with hm | hrest
    · rw [get?_insert] at hm
      split at hm
      · rename_i hk
        subst hk
        obtain rfl := Option.some.inj hm
        exact Or.inr List.mem_cons_self
      · exact Or.inl hm
    · exact Or.inr (List.mem_cons_of_mem e hrest)

theorem nodup_keys_overlay {m : OrderedMap κ α} (h : m.keys.Nodup) (top : OrderedMap κ α) :
    (m.overlay top).keys.Nodup := by
  obtain ⟨l⟩ := top
  show (l.foldl (fun acc e => acc.insert e.1 e.2) m).keys.Nodup
  induction l generalizing m with
  | nil => exact h
  | cons e rest ih => exact ih (nodup_keys_insert h e.1 e.2)

theorem get?_eq_none_iff (m : OrderedMap κ α) (k : κ) : m.get? k = none ↔ k ∉ m.keys := by
  rw [← contains_iff_mem_keys]
  unfold contains
  cases m.get? k <;> simp

theorem mem_keys_of_get? {m : OrderedMap κ α} {k : κ} {a : α} (h : m.get? k = some a) :
    k ∈ m.keys := by
  rw [← contains_iff_mem_keys, contains, h]
  rfl

theorem mem_of_find? {k : κ} {a : α} {l : List (κ × α)} (h : find? k l = some a) : (k, a) ∈ l := by
  induction l with
  | nil => simp [find?] at h
  | cons e rest ih =>
    obtain ⟨k', b⟩ := e
    by_cases hk : k = k'
    · have hb : b = a := by simpa [find?, hk] using h
      simp [hk, hb]
    · exact List.mem_cons_of_mem _ (ih (by simpa [find?, hk] using h))

theorem mem_entries_of_get? {m : OrderedMap κ α} {k : κ} {a : α} (h : m.get? k = some a) :
    (k, a) ∈ m.entries :=
  mem_of_find? h

/-- With distinct keys every entry is found. -/
theorem get?_of_mem {m : OrderedMap κ α} (hm : m.keys.Nodup) {k : κ} {a : α}
    (h : (k, a) ∈ m.entries) : m.get? k = some a := by
  obtain ⟨l⟩ := m
  have hl : (l.map Prod.fst).Nodup := hm
  have h' : (k, a) ∈ l := h
  show find? k l = some a
  clear hm h
  induction l with
  | nil => simp at h'
  | cons e rest ih =>
    obtain ⟨k', b⟩ := e
    rw [List.map_cons, List.nodup_cons] at hl
    by_cases hk : k = k'
    · subst hk
      rcases List.mem_cons.1 h' with he | hr
      · simp [find?, (Prod.mk.inj he).2]
      · exact absurd (List.mem_map_of_mem hr) hl.1
    · rcases List.mem_cons.1 h' with he | hr
      · exact absurd (Prod.mk.inj he).1 hk
      · simpa [find?, hk] using ih hl.2 hr

theorem get?_filterKeys (m : OrderedMap κ α) (p : κ → Bool) (k : κ) :
    (m.filterKeys p).get? k = if p k then m.get? k else none := by
  obtain ⟨l⟩ := m
  show find? k (l.filter fun e => p e.1) = if p k then find? k l else none
  induction l with
  | nil => simp [find?]
  | cons e rest ih =>
    obtain ⟨k', b⟩ := e
    by_cases hp : p k' = true
    · rw [List.filter_cons_of_pos (by simpa using hp)]
      by_cases hk : k = k'
      · subst hk; simp [find?, hp]
      · simp [find?, hk, ih]
    · rw [List.filter_cons_of_neg (by simpa using hp), ih]
      by_cases hk : k = k'
      · subst hk; simp [hp]
      · simp [find?, hk]

/-- What is put under a key that the test does not pass is not seen after it. -/
theorem filterKeys_insert {m : OrderedMap κ α} {p : κ → Bool} {k : κ} (h : p k = false) (a : α) :
    (m.insert k a).filterKeys p = m.filterKeys p := by
  obtain ⟨l⟩ := m
  show OrderedMap.mk ((put k a l).filter fun e => p e.1) = ⟨l.filter fun e => p e.1⟩
  congr 1
  induction l with
  | nil => simp [put, h]
  | cons e rest ih =>
    obtain ⟨k', b⟩ := e
    by_cases hk : k = k'
    · subst hk
      simp [put, h]
    · simp [put, hk, List.filter_cons, ih]

/-- Of two values put under a key the later one stays. -/
theorem insert_insert (m : OrderedMap κ α) (k : κ) (a b : α) :
    (m.insert k a).insert k b = m.insert k b := by
  obtain ⟨l⟩ := m
  show OrderedMap.mk (put k b (put k a l)) = ⟨put k b l⟩
  congr 1
  induction l with
  | nil => simp [put]
  | cons e rest ih =>
    obtain ⟨k', c⟩ := e
    by_cases hk : k = k'
    · simp [put, hk]
    · simp [put, hk, ih]

/-- The value of a present key can be replaced before or after another key is put. -/
theorem insert_comm {m : OrderedMap κ α} {k j : κ} (hk : k ∈ m.keys) (h : j ≠ k) (a b : α) :
    (m.insert j a).insert k b = (m.insert k b).insert j a := by
  obtain ⟨l⟩ := m
  have hl : k ∈ l.map Prod.fst := hk
  show OrderedMap.mk (put k b (put j a l)) = ⟨put j a (put k b l)⟩
  congr 1
  clear hk
  induction l with
  | nil => exact absurd hl List.not_mem_nil
  | cons e rest ih =>
    obtain ⟨k', c⟩ := e
    by_cases hkk : k = k'
    · subst hkk
      simp [put, h]
    · have hrest : k ∈ rest.map Prod.fst := (List.mem_cons.1 hl).resolve_left hkk
      by_cases hjk : j = k'
      · simp [put, hjk, hkk]
      · simp [put, hjk, hkk, ih hrest]

theorem get?_mapValues {β : Type w} (f : α → β) (m : OrderedMap κ α) (k : κ) :
    (m.mapValues f).get? k = (m.get? k).map f := by
  obtain ⟨l⟩ := m
  show find? k (l.map fun e => (e.1, f e.2)) = (find? k l).map f
  induction l with
  | nil => rfl
  | cons e rest ih =>
    obtain ⟨k', b⟩ := e
    by_cases hk : k = k' <;> simp [find?, hk, ih]

theorem mapValues_insert {β : Type w} (f : α → β) (m : OrderedMap κ α) (k : κ) (a : α) :
    (m.insert k a).mapValues f = (m.mapValues f).insert k (f a) := by
  obtain ⟨l⟩ := m
  show OrderedMap.mk ((put k a l).map fun e => (e.1, f e.2)) =
    ⟨put k (f a) (l.map fun e => (e.1, f e.2))⟩
  congr 1
  induction l with
  | nil => rfl
  | cons e rest ih =>
    by_cases hk : k = e.1
    · simp [put, hk]
    · simp [put, hk, ih]

/-- A value that is replaced by one with the same image is not seen through a function. -/
theorem mapValues_insert_of_get? {β : Type w} (f : α → β) {m : OrderedMap κ α} {k : κ} {a b : α}
    (h : m.get? k = some b) (hab : f a = f b) : (m.insert k a).mapValues f = m.mapValues f := by
  obtain ⟨l⟩ := m
  have hl : find? k l = some b := h
  show OrderedMap.mk ((put k a l).map fun e => (e.1, f e.2)) = ⟨l.map fun e => (e.1, f e.2)⟩
  congr 1
  clear h
  induction l with
  | nil => simp [find?] at hl
  | cons e rest ih =>
    obtain ⟨k', c⟩ := e
    by_cases hk : k = k'
    · have hc : c = b := by simpa [find?, hk] using hl
      simp [put, hk, hc, hab]
    · have hr : find? k rest = some b := by simpa [find?, hk] using hl
      simp [put, hk, ih hr]

/-- An entry that is there already is not put anew. -/
theorem insert_of_get? {m : OrderedMap κ α} {k : κ} {a : α} (h : m.get? k = some a) :
    m.insert k a = m := by
  have hput := mapValues_insert_of_get? id h rfl
  have hentries : (m.insert k a).entries = m.entries := by simpa [mapValues] using hput
  exact congrArg mk hentries

/-- An overlay leaves the keys of the first map in front. -/
theorem keys_prefix_overlay (m top : OrderedMap κ α) : m.keys <+: (m.overlay top).keys := by
  obtain ⟨l⟩ := top
  show m.keys <+: (l.foldl (fun acc e => acc.insert e.1 e.2) m).keys
  induction l generalizing m with
  | nil => exact List.prefix_rfl
  | cons e rest ih =>
    refine List.IsPrefix.trans ?_ (ih (m.insert e.1 e.2))
    rw [keys_insert]
    split
    · exact List.prefix_rfl
    · exact List.prefix_append _ _

theorem mem_keys_overlay {m top : OrderedMap κ α} {k : κ} (h : k ∈ top.keys) :
    k ∈ (m.overlay top).keys := by
  obtain ⟨l⟩ := top
  have hl : k ∈ l.map Prod.fst := h
  show k ∈ (l.foldl (fun acc e => acc.insert e.1 e.2) m).keys
  clear h
  induction l generalizing m with
  | nil => exact absurd hl List.not_mem_nil
  | cons e rest ih =>
    rw [List.foldl_cons]
    rcases List.mem_cons.1 hl with rfl | hrest
    · refine (keys_prefix_overlay (m.insert e.1 e.2) ⟨rest⟩).subset ?_
      exact mem_keys_of_get? (get?_insert_self m e.1 e.2)
    · exact ih hrest

/-- The value of a present key can be replaced beneath an overlay that has no entry for it. -/
theorem insert_overlay {m top : OrderedMap κ α} {k : κ} (hk : k ∈ m.keys) (htop : k ∉ top.keys)
    (a : α) : (m.overlay top).insert k a = (m.insert k a).overlay top := by
  obtain ⟨l⟩ := top
  have hl : k ∉ l.map Prod.fst := htop
  show (l.foldl (fun acc e => acc.insert e.1 e.2) m).insert k a =
    l.foldl (fun acc e => acc.insert e.1 e.2) (m.insert k a)
  clear htop
  induction l generalizing m with
  | nil => rfl
  | cons e rest ih =>
    rw [List.map_cons, List.mem_cons, not_or] at hl
    have hmem : k ∈ (m.insert e.1 e.2).keys := by
      rw [keys_insert]
      split
      · exact hk
      · exact List.mem_append_left _ hk
    rw [List.foldl_cons, List.foldl_cons, ih hmem hl.2, insert_comm hk (Ne.symm hl.1)]

/-- A value is lost beneath an overlay that has an entry for its key. -/
theorem overlay_insert_of_mem {m top : OrderedMap κ α} {k : κ} (hk : k ∈ m.keys)
    (htop : k ∈ top.keys) (a : α) : (m.insert k a).overlay top = m.overlay top := by
  obtain ⟨l⟩ := top
  have hl : k ∈ l.map Prod.fst := htop
  show l.foldl (fun acc e => acc.insert e.1 e.2) (m.insert k a) =
    l.foldl (fun acc e => acc.insert e.1 e.2) m
  clear htop
  induction l generalizing m with
  | nil => exact absurd hl List.not_mem_nil
  | cons e rest ih =>
    rw [List.foldl_cons, List.foldl_cons]
    by_cases he : e.1 = k
    · rw [he, insert_insert]
    · have hmem : k ∈ (m.insert e.1 e.2).keys := by
        rw [keys_insert]
        split
        · exact hk
        · exact List.mem_append_left _ hk
      have hrest : k ∈ rest.map Prod.fst :=
        (List.mem_cons.1 hl).resolve_left (Ne.symm he)
      rw [← insert_comm hk he, ih hmem hrest]

/-- A new key goes to the end. -/
theorem entries_insert_of_notMem {m : OrderedMap κ α} {k : κ} (h : k ∉ m.keys) (a : α) :
    (m.insert k a).entries = m.entries ++ [(k, a)] := by
  obtain ⟨l⟩ := m
  have hl : k ∉ l.map Prod.fst := h
  show put k a l = l ++ [(k, a)]
  clear h
  induction l with
  | nil => rfl
  | cons e rest ih =>
    rw [List.map_cons, List.mem_cons, not_or] at hl
    rw [put, if_neg hl.1, ih hl.2, List.cons_append]

/-- The values after an insertion are the inserted one and some of those before. -/
theorem mem_values_insert {m : OrderedMap κ α} {k : κ} {a b : α} (h : b ∈ (m.insert k a).values) :
    b = a ∨ b ∈ m.values := by
  obtain ⟨l⟩ := m
  have hl : b ∈ (put k a l).map Prod.snd := h
  show b = a ∨ b ∈ l.map Prod.snd
  clear h
  induction l with
  | nil =>
    rw [put, List.map_singleton, List.mem_singleton] at hl
    exact Or.inl hl
  | cons e rest ih =>
    by_cases hk : k = e.1
    · rw [put, if_pos hk, List.map_cons, List.mem_cons] at hl
      exact hl.imp id (List.mem_cons_of_mem _)
    · rw [put, if_neg hk, List.map_cons, List.mem_cons] at hl
      rcases hl with hl | hl
      · rw [hl]
        exact Or.inr List.mem_cons_self
      · exact (ih hl).imp id (List.mem_cons_of_mem _)

@[simp] theorem keys_replace (m : OrderedMap κ α) (k : κ) (a : α) :
    (m.replace k a).keys = m.keys := by
  unfold replace
  by_cases h : m.contains k = true
  · rw [if_pos h, keys_insert, if_pos ((contains_iff_mem_keys m k).1 h)]
  · rw [if_neg h]

/-- Changes the values under a key. -/
def adjust (m : OrderedMap κ α) (k : κ) (f : α → α) : OrderedMap κ α :=
  ⟨m.entries.map fun e => (e.1, if e.1 = k then f e.2 else e.2)⟩

@[simp] theorem keys_adjust (m : OrderedMap κ α) (k : κ) (f : α → α) :
    (m.adjust k f).keys = m.keys := by
  simp [adjust, keys, Function.comp_def]

theorem get?_adjust (m : OrderedMap κ α) (k j : κ) (f : α → α) :
    (m.adjust k f).get? j = if j = k then (m.get? k).map f else m.get? j := by
  obtain ⟨l⟩ := m
  show find? j (l.map fun e => (e.1, if e.1 = k then f e.2 else e.2)) =
    if j = k then (find? k l).map f else find? j l
  induction l with
  | nil => simp [find?]
  | cons e rest ih =>
    rw [List.map_cons, find?, ih, find?, find?]
    by_cases hj : j = e.1
    · subst hj
      by_cases hk : e.1 = k
      · simp [hk]
      · simp [hk]
    · by_cases hk : j = k
      · subst hk
        simp [hj]
      · simp [hj, hk]

theorem get?_adjust_of_ne (m : OrderedMap κ α) {k j : κ} (f : α → α) (h : j ≠ k) :
    (m.adjust k f).get? j = m.get? j := by
  rw [get?_adjust, if_neg h]

theorem contains_adjust (m : OrderedMap κ α) (k j : κ) (f : α → α) :
    (m.adjust k f).contains j = m.contains j := by
  unfold contains
  rw [get?_adjust]
  split
  · rename_i hj
    rw [hj, Option.isSome_map]
  · rfl

/-- The entries under some keys, in the order of these keys. -/
def pick (m : OrderedMap κ α) (keys : List κ) : List (κ × α) :=
  keys.filterMap fun k => (m.get? k).map fun a => (k, a)

/-- A look-up in the entries that some keys make. -/
theorem find?_filterMap (g : κ → Option α) {keys : List κ} {k : κ} (hk : k ∈ keys) :
    find? k (keys.filterMap fun j => (g j).map fun a => (j, a)) = g k := by
  induction keys with
  | nil => exact absurd hk List.not_mem_nil
  | cons j rest ih =>
    by_cases hkj : k = j
    · subst hkj
      cases hget : g k with
      | some a => simp [hget, find?]
      | none =>
        -- the key does not come up again
        rw [List.filterMap_cons_none (by rw [hget]; rfl)]
        by_cases hrest : k ∈ rest
        · rw [ih hrest, hget]
        · rw [← Option.not_isSome_iff_eq_none, find?_isSome, List.mem_map]
          rintro ⟨e, he, rfl⟩
          obtain ⟨i, hi, he⟩ := List.mem_filterMap.1 he
          obtain ⟨a, -, rfl⟩ := Option.map_eq_some_iff.1 he
          exact hrest hi
    · have hrest := ih ((List.mem_cons.1 hk).resolve_left hkj)
      cases hget : g j with
      | some a => simp [hget, find?, hkj, hrest]
      | none => simp [hget, hrest]

theorem find?_pick (m : OrderedMap κ α) {keys : List κ} {k : κ} (hk : k ∈ keys) :
    find? k (m.pick keys) = m.get? k :=
  find?_filterMap m.get? hk

theorem map_fst_pick_sublist (m : OrderedMap κ α) (keys : List κ) :
    ((m.pick keys).map Prod.fst).Sublist keys := by
  unfold pick
  induction keys with
  | nil => exact .slnil
  | cons j rest ih =>
    cases hget : m.get? j with
    | some a => simpa [hget] using ih
    | none => simpa [hget] using ih.cons j

end Laws

end OrderedMap

end ChartLowering
