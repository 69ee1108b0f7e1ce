import ChartLowering.Proofs.Json.Collision
import ChartLowering.Proofs.Json.Equality

/-
  Values up to the order of keys.

  Whether the order of the keys of an object counts depends on where the object stands (`Place`).
  `Json.arranged` sorts the keys of all objects whose order does not count, so two values differ in
  the order of such keys only if they are arranged alike. What reads a value by its keys does not see
  the order (`find?_arrangedFields`, `same_arranged`), nor does what goes into a digest
  (`sorted_arranged`).
-/

namespace ChartLowering

/-- Where a value stands. -/
inductive Place where
  /-- The order of keys counts, here and in everything below. -/
  | fixed
  /-- The order of keys counts neither here nor below. -/
  | free
  /-- A specification, or a view in one. -/
  | view
  /-- The channels of a view, whose order counts. -/
  | encoding
  /-- The definition of a channel, in which constants are kept as they are. -/
  | channel
deriving Repr, DecidableEq

namespace Place

/-- The place of what stands under a key. -/
def below : Place → String → Place
  | .fixed, _ => .fixed
  | .free, _ => .free
  | .view, key =>
    if key = "encoding" then .encoding
    else if key ∈ ["view", "layer", "spec", "concat", "hconcat", "vconcat"] then .view
    else .free
  | .encoding, _ => .channel
  | .channel, key => if key ∈ ["datum", "value"] then .fixed else .free

/-- Puts a field in front of others, or to its place among them where the order does not count. -/
def enter (p : Place) (f : String × Json) (l : List (String × Json)) : List (String × Json) :=
  match p with
  | .fixed | .encoding => f :: l
  | .free | .view | .channel => Json.insertField f l

/-- Whether a place is like all places below it. -/
def IsUniform (p : Place) : Prop := ∀ key, p.below key = p

theorem isUniform_fixed : IsUniform .fixed := fun _ => rfl

theorem isUniform_free : IsUniform .free := fun _ => rfl

/-- Fields are put in front of others, or to their places among them. -/
theorem enter_eq (p : Place) : p.enter = List.cons ∨ p.enter = Json.insertField := by
  cases p with
  | fixed | encoding => exact .inl rfl
  | free | view | channel => exact .inr rfl

/-- What holds of a list with one more field in front and of one with it inserted holds of a list
with the field entered. -/
theorem enter_cases {motive : (String × Json → List (String × Json) → List (String × Json)) → Prop}
    (p : Place) (front : motive List.cons) (sorted : motive Json.insertField) : motive p.enter := by
  rcases p.enter_eq with hp | hp
  · rw [hp]
    exact front
  · rw [hp]
    exact sorted

end Place

namespace Json

mutual

/-- The value with the keys of all objects sorted where their order does not count. -/
def arranged (p : Place) : Json → Json
  | .arr items => .arr (arrangedItems p items)
  | .table rows => .table (arrangedItems p rows)
  | .obj fields => .obj (arrangedFields p fields)
  | j => j

def arrangedItems (p : Place) : List Json → List Json
  | [] => []
  | v :: rest => arranged p v :: arrangedItems p rest

def arrangedFields (p : Place) : List (String × Json) → List (String × Json)
  | [] => []
  | (k, v) :: rest => p.enter (k, arranged (p.below k) v) (arrangedFields p rest)

end

variable {p q : Place}

theorem arrangedItems_eq_map (p : Place) (items : List Json) :
    arrangedItems p items = items.map (arranged p) := by
  induction items with
  | nil => rfl
  | cons v rest ih => rw [arrangedItems, ih, List.map_cons]

/-! ## Where the order of all keys counts -/

mutual

theorem arranged_fixed : ∀ j : Json, arranged .fixed j = j
  | .null | .bool _ | .num _ | .str _ => rfl
  | .arr items => by rw [arranged, arrangedItems_fixed items]
  | .table rows => by rw [arranged, arrangedItems_fixed rows]
  | .obj fields => by rw [arranged, arrangedFields_fixed fields]

theorem arrangedItems_fixed : ∀ items : List Json, arrangedItems .fixed items = items
  | [] => rfl
  | v :: rest => by rw [arrangedItems, arranged_fixed v, arrangedItems_fixed rest]

theorem arrangedFields_fixed : ∀ fs : List (String × Json), arrangedFields .fixed fs = fs
  | [] => rfl
  | (k, v) :: rest => by
    rw [arrangedFields, arrangedFields_fixed rest]
    show (k, arranged .fixed v) :: rest = _
    rw [arranged_fixed v]

end

/-! ## Reading fields -/

theorem find?_enter (p : Place) (f : String × Json) (l : List (String × Json)) (k : String) :
    OrderedMap.find? k (p.enter f l) = if k = f.1 then some f.2 else OrderedMap.find? k l :=
  p.enter_cases (motive := fun enter =>
      OrderedMap.find? k (enter f l) = if k = f.1 then some f.2 else OrderedMap.find? k l)
    rfl (find?_insertField f l k)

theorem length_enter (p : Place) (f : String × Json) (l : List (String × Json)) :
    (p.enter f l).length = l.length + 1 :=
  p.enter_cases (motive := fun enter => (enter f l).length = l.length + 1) rfl
    (length_insertField f l)

theorem mem_insertField {e f : String × Json} {l : List (String × Json)} :
    e ∈ insertField f l ↔ e = f ∨ e ∈ l := by
  induction l with
  | nil => exact List.mem_cons
  | cons g rest ih =>
    rw [insertField]
    split
    · exact List.mem_cons
    · rw [List.mem_cons, ih, List.mem_cons]
      exact or_left_comm

theorem mem_enter {e f : String × Json} {l : List (String × Json)} :
    e ∈ p.enter f l ↔ e = f ∨ e ∈ l :=
  p.enter_cases (motive := fun enter => e ∈ enter f l ↔ e = f ∨ e ∈ l) List.mem_cons
    mem_insertField

/-- The fields of an arranged object are those of the object, arranged. -/
theorem find?_arrangedFields (p : Place) (fs : List (String × Json)) (k : String) :
    OrderedMap.find? k (arrangedFields p fs) =
      (OrderedMap.find? k fs).map (arranged (p.below k)) := by
  induction fs with
  | nil => rfl
  | cons f rest ih =>
    obtain ⟨l, v⟩ := f
    rw [arrangedFields, find?_enter, ih, OrderedMap.find?]
    by_cases hk : k = l
    · rw [if_pos hk, if_pos hk, hk, Option.map_some]
    · rw [if_neg hk, if_neg hk]

theorem length_arrangedFields (p : Place) (fs : List (String × Json)) :
    (arrangedFields p fs).length = fs.length := by
  induction fs with
  | nil => rfl
  | cons f rest ih =>
    obtain ⟨k, v⟩ := f
    rw [arrangedFields, length_enter, ih, List.length_cons]

theorem mem_arrangedFields {e : String × Json} {fs : List (String × Json)} :
    e ∈ arrangedFields p fs ↔ ∃ f ∈ fs, e = (f.1, arranged (p.below f.1) f.2) := by
  induction fs with
  | nil => simp [arrangedFields]
  | cons f rest ih =>
    obtain ⟨k, v⟩ := f
    rw [arrangedFields, mem_enter, ih]
    simp

/-- Equal fields of arranged objects. -/
theorem map_arranged_find?_eq {fs gs : List (String × Json)}
    (h : arrangedFields p fs = arrangedFields p gs) (k : String) :
    (OrderedMap.find? k fs).map (arranged (p.below k)) =
      (OrderedMap.find? k gs).map (arranged (p.below k)) := by
  rw [← find?_arrangedFields, ← find?_arrangedFields, h]

/-! ## What does not see the order -/

theorem number?_arranged (p : Place) (j : Json) : (arranged p j).number? = j.number? := by
  cases j <;> rfl

theorem isNull_arranged (p : Place) (j : Json) : (arranged p j).isNull = j.isNull := by
  cases j <;> rfl

theorem nanObject?_arranged (p : Place) (j : Json) : (arranged p j).nanObject? = j.nanObject? := by
  cases j <;> rfl

theorem isOneNan_arranged (p q : Place) (a b : Json) :
    isOneNan (arranged p a) (arranged q b) = isOneNan a b := by
  simp only [isOneNan, isNan, nanObject?_arranged]

mutual

/-- Equality by value goes through objects without regard to order. -/
theorem same_arranged (p q : Place) : ∀ a b : Json, same (arranged p a) (arranged q b) = same a b
  | .null, b => by
    rw [arranged, same, same, isNull_arranged]
    all_goals nofun
  | .bool x, b => by
    rw [arranged, same, same, number?_arranged]
    all_goals nofun
  | .num n, b => by
    rw [arranged, same, same, number?_arranged]
    all_goals nofun
  | .str s, b => by cases b <;> rfl
  | .arr xs, b => by
    cases b with
    | arr ys => exact sameItems_arranged p q xs ys
    | null | bool | num | str | obj | table => rfl
  | .table xs, b => by
    cases b with
    | table ys => exact sameItems_arranged p q xs ys
    | null | bool | num | str | obj | arr => rfl
  | .obj fs, b => by
    cases b with
    | obj gs =>
      rw [arranged, arranged, same, same, length_arrangedFields, length_arrangedFields]
      congr 1
      rw [Bool.eq_iff_iff, sameFields_iff, sameFields_iff]
      have hfield := sameFields_arranged p q fs
      constructor
      · intro h e he
        obtain ⟨w, hw, hsame⟩ := h _ (mem_arrangedFields.2 ⟨e, he, rfl⟩)
        rw [find?_arrangedFields, Option.map_eq_some_iff] at hw
        obtain ⟨v, hv, rfl⟩ := hw
        exact ⟨v, hv, by rwa [hfield e he] at hsame⟩
      · intro h e he
        obtain ⟨f, hf, rfl⟩ := mem_arrangedFields.1 he
        obtain ⟨w, hw, hsame⟩ := h f hf
        refine ⟨arranged (q.below f.1) w, ?_, by rwa [hfield f hf]⟩
        rw [find?_arrangedFields, hw, Option.map_some]
    | null | bool | num | str | arr | table => rfl

theorem sameItems_arranged (p q : Place) : ∀ xs ys : List Json,
    sameItems (arrangedItems p xs) (arrangedItems q ys) = sameItems xs ys
  | [], ys => by cases ys <;> rfl
  | x :: xs, ys => by
    cases ys with
    | nil => rfl
    | cons y ys =>
      rw [arrangedItems, arrangedItems, sameItems, sameItems, isOneNan_arranged,
        same_arranged p q x y, sameItems_arranged p q xs ys]

theorem sameFields_arranged (p q : Place) : ∀ fs : List (String × Json), ∀ e ∈ fs, ∀ w,
    sameMember (arranged (p.below e.1) e.2) (arranged (q.below e.1) w) = sameMember e.2 w
  | [], e, he => absurd he List.not_mem_nil
  | (k, v) :: rest, e, he => by
    intro w
    rcases List.mem_cons.1 he with rfl | he
    · rw [sameMember, sameMember, isOneNan_arranged, same_arranged (p.below k) (q.below k) v w]
    · exact sameFields_arranged p q rest e he w

end

mutual

theorem depth_arranged (p : Place) : ∀ j : Json, depth (arranged p j) = depth j
  | .null | .bool _ | .num _ | .str _ => rfl
  | .arr items => by rw [arranged, depth, depth, depthItems_arranged p items]
  | .table rows => by rw [arranged, depth, depth, depthItems_arranged p rows]
  | .obj fields => by rw [arranged, depth, depth, depthFields_arranged p fields]

theorem depthItems_arranged (p : Place) : ∀ items : List Json,
    depthItems (arrangedItems p items) = depthItems items
  | [] => rfl
  | v :: rest => by
    rw [arrangedItems, depthItems, depthItems, depth_arranged p v, depthItems_arranged p rest]

theorem depthFields_arranged (p : Place) : ∀ fs : List (String × Json),
    depthFields (arrangedFields p fs) = depthFields fs
  | [] => rfl
  | (k, v) :: rest => by
    have hinsert : ∀ (f : String × Json) l,
        depthFields (insertField f l) = max (depth f.2) (depthFields l) := by
      intro f l
      induction l with
      | nil => rfl
      | cons g rest ih =>
        rw [insertField]
        split
        · rfl
        · rw [depthFields, ih, depthFields, max_left_comm]
    have henter := p.enter_cases (motive := fun enter => ∀ (f : String × Json) l,
      depthFields (enter f l) = max (depth f.2) (depthFields l)) (fun _ _ => rfl) hinsert
    rw [arrangedFields, henter, depth_arranged _ v, depthFields_arranged p rest, depthFields]

end

mutual

theorem plain_arranged (p : Place) : ∀ j : Json, plain (arranged p j) = arranged p (plain j)
  | .null | .bool _ | .str _ => rfl
  | .num n => by
    rw [arranged, plain]
    · split <;> rfl
    all_goals nofun
  | .arr items => by rw [arranged, plain, plain, plainItems_arranged p items, arranged]
  | .table rows => by rw [arranged, plain, plain, plainItems_arranged p rows, arranged]
  | .obj fields => by rw [arranged, plain, plain, plainFields_arranged p fields, arranged]

theorem plainItems_arranged (p : Place) : ∀ items : List Json,
    plainItems (arrangedItems p items) = arrangedItems p (plainItems items)
  | [] => rfl
  | v :: rest => by
    rw [arrangedItems, plainItems, plainItems, arrangedItems, plain_arranged p v,
      plainItems_arranged p rest]

theorem plainFields_arranged (p : Place) : ∀ fs : List (String × Json),
    plainFields (arrangedFields p fs) = arrangedFields p (plainFields fs)
  | [] => rfl
  | (k, v) :: rest => by
    have hinsert : ∀ (f : String × Json) l,
        plainFields (insertField f l) = insertField (f.1, plain f.2) (plainFields l) := by
      intro f l
      induction l with
      | nil => rfl
      | cons g rest ih =>
        rw [insertField, plainFields, insertField]
        split
        · rfl
        · rw [plainFields, ih]
    have henter := p.enter_cases (motive := fun enter => ∀ (f : String × Json) l,
      plainFields (enter f l) = enter (f.1, plain f.2) (plainFields l)) (fun _ _ => rfl) hinsert
    rw [arrangedFields, henter, plainFields, arrangedFields, plain_arranged _ v,
      plainFields_arranged p rest]

end

/-! ## Sorting further -/

/-- Fields under different keys are inserted in any order. -/
theorem insertField_comm {f g : String × Json} (h : f.1 ≠ g.1) (l : List (String × Json)) :
    insertField f (insertField g l) = insertField g (insertField f l) := by
  -- both in front, the one with the lower key first
  have hfront : ∀ rest, (if f.1 ≤ g.1 then f :: g :: rest else g :: f :: rest) =
      if g.1 ≤ f.1 then g :: f :: rest else f :: g :: rest := by
    intro rest
    rcases String.le_total f.1 g.1 with hle | hle
    · rw [if_pos hle, if_neg fun hge => h (String.le_antisymm hle hge)]
    · rw [if_pos hle, if_neg fun hge => h (String.le_antisymm hge hle)]
  induction l with
  | nil => exact hfront []
  | cons e rest ih =>
    by_cases hf : f.1 ≤ e.1
    · have hfe : insertField f (e :: rest) = f :: e :: rest := by rw [insertField, if_pos hf]
      by_cases hg : g.1 ≤ e.1
      · have hge : insertField g (e :: rest) = g :: e :: rest := by rw [insertField, if_pos hg]
        rw [hfe, hge]
        show (if f.1 ≤ g.1 then f :: g :: e :: rest else g :: insertField f (e :: rest)) =
          if g.1 ≤ f.1 then g :: f :: e :: rest else f :: insertField g (e :: rest)
        rw [hfe, hge]
        exact hfront (e :: rest)
      · -- `f` goes before the first field and `g` behind it
        have hlt : ¬ g.1 ≤ f.1 := fun hle => hg (String.le_trans hle hf)
        rw [insertField, if_neg hg, insertField, if_pos hf, hfe, insertField, if_neg hlt, insertField,
          if_neg hg]
    · by_cases hg : g.1 ≤ e.1
      · have hlt : ¬ f.1 ≤ g.1 := fun hle => hf (String.le_trans hle hg)
        have hge : insertField g (e :: rest) = g :: e :: rest := by rw [insertField, if_pos hg]
        rw [hge, insertField, if_neg hlt, insertField, if_neg hf, insertField, if_pos hg]
      · rw [insertField, if_neg hg, insertField, if_neg hf, ih, insertField, if_neg hf, insertField,
          if_neg hg]

theorem sortedFields_insertField (f : String × Json) (l : List (String × Json)) :
    sortedFields (insertField f l) = insertField (f.1, sorted f.2) (sortedFields l) := by
  induction l with
  | nil => rfl
  | cons g rest ih =>
    rw [insertField]
    split
    · rfl
    · rename_i hlt
      have hne : g.1 ≠ f.1 := fun he => hlt (he ▸ String.le_refl _)
      rw [sortedFields, ih, sortedFields]
      exact @insertField_comm (g.1, g.2.sorted) (f.1, f.2.sorted) hne _

mutual

/-- Sorting all keys makes up for arranging some before. -/
theorem sorted_arranged (p : Place) : ∀ j : Json, sorted (arranged p j) = sorted j
  | .null | .bool _ | .num _ | .str _ => rfl
  | .arr items => by rw [arranged, sorted, sorted, sortedItems_arranged p items]
  | .table rows => by rw [arranged, sorted, sorted, sortedItems_arranged p rows]
  | .obj fields => by rw [arranged, sorted, sorted, sortedFields_arranged p fields]

theorem sortedItems_arranged (p : Place) : ∀ items : List Json,
    sortedItems (arrangedItems p items) = sortedItems items
  | [] => rfl
  | v :: rest => by
    rw [arrangedItems, sortedItems, sortedItems, sorted_arranged p v, sortedItems_arranged p rest]

theorem sortedFields_arranged (p : Place) : ∀ fs : List (String × Json),
    sortedFields (arrangedFields p fs) = sortedFields fs
  | [] => rfl
  | (k, v) :: rest => by
    have henter := p.enter_cases (motive := fun enter => ∀ (f : String × Json) l,
      sortedFields (enter f l) = insertField (f.1, sorted f.2) (sortedFields l)) (fun _ _ => rfl)
      sortedFields_insertField
    rw [arrangedFields, henter, sorted_arranged _ v, sortedFields_arranged p rest, sortedFields]

end

/-- Values that differ in the order of keys have one fingerprint. -/
theorem fingerprint_eq_of_arranged_eq {a b : Json} (h : arranged p a = arranged p b) :
    a.fingerprint = b.fingerprint := by
  refine fingerprint_eq_of_sorted_eq ?_
  rw [← sorted_arranged p a, h, sorted_arranged]

end Json

end ChartLowering
