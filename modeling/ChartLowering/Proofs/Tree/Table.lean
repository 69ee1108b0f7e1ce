import ChartLowering.Proofs.Tree.Gather
import ChartLowering.Proofs.Tree.Numbered

/-
  Trees as tables.

  A tree can be kept as a table that has a row for every node, in the order of the walk. Rows refer to
  each other by their indices, so nothing about a table by itself makes sense of its references: a walk
  that follows them need not come to an end, and has no result if it does not (`walkFrom`). In the
  table of a tree (`rows`) references agree in both directions and lead from lower to higher indices
  (`isIndexed_rows`). Walks therefore end: downwards (`walkFrom_rows`) in what `gather` finds, which is
  the block of indices of a subtree or a rearrangement of it with children in order before their
  parent, and upwards at the root (`ancestors_rows`).
-/

namespace ChartLowering

/-- A node with its own index, that of its parent and those of its children. -/
structure Row (α : Type) where
  index : Nat
  parent : Option Nat
  children : List Nat
  label : α
deriving Repr, DecidableEq

/-- Nodes that are addressed by their positions. -/
abbrev Table (α : Type) := List (Row α)

def Row.place {α : Type} (r : Row α) : Tree.Place := ⟨r.parent, r.children⟩

namespace Table

variable {α : Type}

/-! ## Walks along references -/

/-- A walk that goes to the children of a row in order, and puts the row to what it finds there. -/
def walkFrom (put : Nat → List Nat → List Nat) (rows : Table α) (i : Nat) : Option (List Nat) := do
  let r ← rows[i]?
  let below ← r.children.mapM (rows |>.walkFrom put)
  return put i below.flatten
partial_fixpoint

/-- Every row before its children. -/
def preOrder (rows : Table α) : Nat → Option (List Nat) := walkFrom List.cons rows

/-- Every row after its children. -/
def postOrder (rows : Table α) : Nat → Option (List Nat) := walkFrom (fun i below => below ++ [i]) rows

/-- A row and the rows above it, nearest first. -/
def ancestors (rows : Table α) (i : Nat) : Option (List Nat) := do
  let r ← rows[i]?
  match r.parent with
  | none => return [i]
  | some p => return i :: (← rows |>.ancestors p)
partial_fixpoint

/-- Whether a row refers to another one as its parent. -/
def ParentOf (rows : Table α) (i p : Nat) : Prop := ∃ r : Row α, rows[i]? = some r ∧ r.parent = some p

/-- Whether rows stand under their indices, and their references agree and lead to higher indices. -/
structure IsIndexed (rows : Table α) : Prop where
  index : ∀ (i : Nat) (r : Row α), rows[i]? = some r → r.index = i
  root : ∀ (i : Nat) (r : Row α), rows[i]? = some r → (r.parent = none ↔ i = 0)
  parent_lt : ∀ i p, rows.ParentOf i p → p < i
  increasing : ∀ (i : Nat) (r : Row α), rows[i]? = some r → r.children.Pairwise (· < ·)
  mem_children : ∀ (i : Nat) (r : Row α), rows[i]? = some r → ∀ c, c ∈ r.children ↔ rows.ParentOf c i

/-- What walks from row `i` find: downwards the block of rows that have row `i` above them, in the
order of their indices or with all children in order before their parent, and upwards the rows from
parent to parent as far as row 0. -/
structure IsWalked (rows : Table α) (i : Nat) (down up path : List Nat) : Prop where
  preOrder : rows.preOrder i = some down
  postOrder : rows.postOrder i = some up
  ancestors : rows.ancestors i = some path
  contiguous : down = List.range' i down.length
  mem_down : ∀ j, j ∈ down ↔ ∃ path, rows.ancestors j = some path ∧ i ∈ path
  perm : up.Perm down
  children_first : ∀ j ∈ up, ∀ r : Row α, rows[j]? = some r → (r.children ++ [j]).Sublist up
  head : path.head? = some i
  chain : path.IsChain rows.ParentOf
  last : path.getLast? = some 0

/-- The labels of the rows with given indices. -/
def labelsAt (rows : Table α) (is : List Nat) : List α := is.filterMap fun i => rows[i]?.map Row.label

theorem exists_row_of_ancestors {rows : Table α} {i : Nat} {path : List Nat}
    (h : rows.ancestors i = some path) : ∃ r : Row α, rows[i]? = some r := by
  rw [ancestors] at h
  cases hr : rows[i]? with
  | none => rw [hr] at h; cases h
  | some r => exact ⟨r, rfl⟩

/-- A search that succeeds at every item finds all results. -/
theorem mapM_eq_some {β γ : Type} {f : β → Option γ} {g : β → γ} {l : List β}
    (h : ∀ b ∈ l, f b = some (g b)) : l.mapM f = some (l.map g) := by
  induction l with
  | nil => rfl
  | cons b l ih =>
    obtain ⟨hb, hl⟩ := List.forall_mem_cons.1 h
    rw [List.mapM_cons, hb, ih hl]
    rfl

end Table

namespace Tree

variable {α : Type}

/-! ## Rows of a tree -/

/-- The row of a node with a number. -/
def rowOf (l : Located (Nat × α)) : Row α :=
  ⟨l.tree.number, l.above.head?.map Prod.fst, l.tree.children.map number, l.tree.label.2⟩

/-- The rows of a tree that hangs beneath other nodes, from number `i` on. -/
def rowsBelow (i : Nat) (above : List (Nat × α)) (t : Tree α) : Table α :=
  ((t.numbered i).walk above).map rowOf

def rowsBelowAll (i : Nat) (above : List (Nat × α)) (ts : List (Tree α)) : Table α :=
  (walkAll above (numberedAll i ts)).map rowOf

theorem rowsBelow_node (i : Nat) (above : List (Nat × α)) (a : α) (kids : List (Tree α)) :
    (Tree.node a kids).rowsBelow i above =
      ⟨i, above.head?.map Prod.fst, (numberedAll (i + 1) kids).map number, a⟩ ::
        rowsBelowAll (i + 1) ((i, a) :: above) kids := by
  rw [rowsBelow, numbered, walk, List.map_cons]
  rfl

theorem rowsBelowAll_cons (i : Nat) (above : List (Nat × α)) (t : Tree α) (ts : List (Tree α)) :
    rowsBelowAll i above (t :: ts) =
      t.rowsBelow i above ++ rowsBelowAll (i + t.size) above ts := by
  rw [rowsBelowAll, numberedAll, walkAll, List.map_append]
  rfl

theorem length_rowsBelow (i : Nat) (above : List (Nat × α)) (t : Tree α) :
    (t.rowsBelow i above).length = t.size := by
  rw [rowsBelow, List.length_map, length_walk, size_numbered]

/-- The table of a tree. -/
def rows (t : Tree α) : Table α := t.rowsBelow 0 []

/-- The rows are the nodes, with their labels and as many children. -/
theorem map_rows {β : Type} (f : α → Nat → β) (t : Tree α) :
    t.rows.map (fun r => f r.label r.children.length) =
      (t.walk []).map fun l => f l.tree.label l.tree.children.length := by
  have hwalk := walk_map_nil Prod.snd (t.numbered 0)
  rw [map_snd_numbered] at hwalk
  rw [hwalk, rows, rowsBelow, List.map_map, List.map_map]
  refine List.map_congr_left fun l _ => ?_
  simp only [Function.comp_apply, rowOf, label_map, children_map, List.length_map]

theorem map_label_rows (t : Tree α) : t.rows.map Row.label = t.labels :=
  map_rows (fun a _ => a) t

theorem map_place_rows (t : Tree α) : t.rows.map Row.place = t.places := by
  rw [places, ← map_fst_numbered, walk_map_nil, rows, rowsBelow, List.map_map, List.map_map]
  refine List.map_congr_left fun l _ => ?_
  simp only [Function.comp_apply, rowOf, Row.place, List.head?_map, children_map, List.map_map]
  congr 1
  exact List.map_congr_left fun u _ => (label_map Prod.fst u).symm

/-! ## References -/

section Numbers

variable {t : Tree α} {l m : Located (Nat × α)}

/-- Numbers tell nodes apart. -/
theorem eq_of_number_eq (hl : l ∈ (t.numbered 0).walk []) (hm : m ∈ (t.numbered 0).walk [])
    (h : l.tree.number = m.tree.number) : l = m := by
  have heq := getElem?_walk_number hl
  rw [h, getElem?_walk_number hm] at heq
  exact (Option.some.inj heq).symm

theorem children_number (hl : l ∈ (t.numbered 0).walk []) :
    (l.tree.children.map number).Pairwise (· < ·) ∧
      ∀ u ∈ l.tree.children, l.tree.number < u.number := by
  obtain ⟨s, hs⟩ := exists_numbered_of_mem_walk hl
  rw [hs, number_numbered]
  cases s with
  | node a kids =>
    exact ⟨pairwise_numberedAll _ kids, fun u hu => le_number_of_mem_numberedAll hu⟩

theorem getElem?_rows {i : Nat} {r : Row α} :
    t.rows[i]? = some r ↔ ∃ l ∈ (t.numbered 0).walk [], l.tree.number = i ∧ rowOf l = r := by
  rw [rows, rowsBelow, List.getElem?_map, Option.map_eq_some_iff]
  constructor
  · rintro ⟨l, hl, hr⟩
    refine ⟨l, List.mem_of_getElem? hl, ?_, hr⟩
    have hnumber : (List.range' 0 t.size)[i]? = some l.tree.number := by
      rw [← map_number_walk 0 t, List.getElem?_map, hl]
      rfl
    obtain ⟨_, hnumber⟩ := List.getElem?_eq_some_iff.1 hnumber
    rw [← hnumber, List.getElem_range']
    omega
  · rintro ⟨l, hl, rfl, hr⟩
    exact ⟨l, getElem?_walk_number hl, hr⟩

theorem parentOf_rows {i p : Nat} :
    t.rows.ParentOf i p ↔ ∃ l ∈ (t.numbered 0).walk [], ∃ u ∈ l.tree.children,
      l.tree.number = p ∧ u.number = i := by
  constructor
  · rintro ⟨r, hr, hp⟩
    obtain ⟨m, hm, hi, rfl⟩ := getElem?_rows.1 hr
    rcases eq_root_or_exists_child hm with rfl | ⟨l, hl, u, hu, rfl⟩
    · cases hp
    · exact ⟨l, hl, u, hu, Option.some.inj hp, hi⟩
  · rintro ⟨l, hl, u, hu, rfl, rfl⟩
    exact ⟨rowOf (l.child u), getElem?_rows.2 ⟨l.child u, child_mem_walk hl hu, rfl, rfl⟩, rfl⟩

/-- In the table of a tree the references make sense. -/
theorem isIndexed_rows (t : Tree α) : t.rows.IsIndexed where
  index i r hr := by
    obtain ⟨l, -, hi, rfl⟩ := getElem?_rows.1 hr
    exact hi
  root i r hr := by
    obtain ⟨l, hl, rfl, rfl⟩ := getElem?_rows.1 hr
    rcases eq_root_or_exists_child hl with rfl | ⟨p, hp, u, hu, rfl⟩
    · exact iff_of_true rfl (number_numbered 0 t)
    · have hlt := (children_number hp).2 u hu
      exact iff_of_false (Option.some_ne_none _) (Nat.ne_of_gt (Nat.zero_lt_of_lt hlt))
  parent_lt i p h := by
    obtain ⟨l, hl, u, hu, rfl, rfl⟩ := parentOf_rows.1 h
    exact (children_number hl).2 u hu
  increasing i r hr := by
    obtain ⟨l, hl, -, rfl⟩ := getElem?_rows.1 hr
    exact (children_number hl).1
  mem_children i r hr c := by
    obtain ⟨l, hl, rfl, rfl⟩ := getElem?_rows.1 hr
    rw [parentOf_rows]
    constructor
    · intro hc
      obtain ⟨u, hu, rfl⟩ := List.mem_map.1 hc
      exact ⟨l, hl, u, hu, rfl, rfl⟩
    · rintro ⟨m, hm, u, hu, hml, rfl⟩
      obtain rfl := eq_of_number_eq hm hl hml
      exact List.mem_map_of_mem hu

/-! ## Walks along the references of a tree -/

theorem ancestors_rows : ∀ l ∈ (t.numbered 0).walk [],
    t.rows.ancestors l.tree.number = some ((l.tree.label :: l.above).map Prod.fst) := by
  refine forall_walk_down _ ?_ ?_
  · have hroot := getElem?_rows.2 ⟨_, self_mem_walk [] (t.numbered 0), rfl, rfl⟩
    rw [Table.ancestors, hroot]
    rfl
  · intro l hl ih u hu
    have hrow := getElem?_rows.2 ⟨_, child_mem_walk hl hu, rfl, rfl⟩
    have hparent : (rowOf (l.child u)).parent = some l.tree.number := rfl
    rw [Table.ancestors, hrow, Option.bind_eq_bind, Option.bind_some, hparent]
    show (t.rows.ancestors l.tree.number).bind _ = _
    rw [ih]
    rfl

theorem walkFrom_rows (put : Nat → List Nat → List Nat) : ∀ l ∈ (t.numbered 0).walk [],
    t.rows.walkFrom put l.tree.number = some ((l.tree.map Prod.fst).gather put) := by
  refine forall_walk_up _ _ ?_
  intro l hl ih
  have hrow := getElem?_rows.2 ⟨l, hl, rfl, rfl⟩
  have hbelow : (rowOf l).children.mapM (t.rows.walkFrom put) =
      some (l.tree.children.map fun u => (u.map Prod.fst).gather put) := by
    show (l.tree.children.map number).mapM _ = _
    rw [List.mapM_map]
    exact Table.mapM_eq_some ih
  rw [Table.walkFrom, hrow, Option.bind_eq_bind, Option.bind_some, hbelow]
  obtain ⟨⟨a, kids⟩, above⟩ := l
  rw [map_node, gather_node, List.flatMap_map, List.flatMap_def]
  rfl

/-- The indices from the root of a table down to a node lead from parent to parent. -/
theorem path_rows : ∀ l ∈ (t.numbered 0).walk [],
    ((l.tree.label :: l.above).map Prod.fst).IsChain t.rows.ParentOf ∧
      ((l.tree.label :: l.above).map Prod.fst).getLast? = some 0 := by
  refine forall_walk_down _ ?_ ?_
  · rw [label_numbered]
    exact ⟨List.IsChain.singleton 0, rfl⟩
  · intro l hl ⟨hchain, hlast⟩ u hu
    refine ⟨List.IsChain.cons_cons (parentOf_rows.2 ⟨l, hl, u, hu, rfl, rfl⟩) hchain, ?_⟩
    show (u.label.1 :: (l.tree.label :: l.above).map Prod.fst).getLast? = _
    rw [List.map_cons, List.getLast?_cons_cons]
    exact hlast

theorem numbers_below (hl : l ∈ (t.numbered 0).walk []) :
    (l.tree.map Prod.fst).labels = List.range' l.tree.number l.tree.size := by
  obtain ⟨s, hs⟩ := exists_numbered_of_mem_walk hl
  rw [labels_map, hs, numbers_numbered, number_numbered, size_numbered]

theorem mem_labels_map_fst {u : Tree (Nat × α)} {j : Nat} (above : List (Nat × α)) :
    j ∈ (u.map Prod.fst).labels ↔ ∃ m ∈ u.walk above, m.tree.number = j := by
  rw [labels_map, ← map_label_walk u above, List.map_map]
  exact List.mem_map

/-- The nodes below a node are those with it on their way to the root. -/
theorem mem_numbers_below (hl : l ∈ (t.numbered 0).walk []) {j : Nat} :
    j ∈ (l.tree.map Prod.fst).labels ↔
      ∃ path, t.rows.ancestors j = some path ∧ l.tree.number ∈ path := by
  rw [mem_labels_map_fst l.above]
  constructor
  · rintro ⟨m, hm, rfl⟩
    refine ⟨_, ancestors_rows m (mem_walk_of_mem_walk hl hm), ?_⟩
    obtain ⟨between, hbetween⟩ := exists_between_of_mem_walk hm
    rw [hbetween]
    exact List.mem_map_of_mem (List.mem_append_right between List.mem_cons_self)
  · rintro ⟨path, hpath, hmem⟩
    obtain ⟨r, hr⟩ := Table.exists_row_of_ancestors hpath
    obtain ⟨m, hm, rfl, -⟩ := getElem?_rows.1 hr
    obtain rfl := Option.some.inj ((ancestors_rows m hm).symm.trans hpath)
    obtain ⟨a, ha, hal⟩ := List.mem_map.1 hmem
    obtain ⟨p, hp, rfl, hmp⟩ := exists_mem_walk_of_mem_above m hm ha
    obtain rfl := eq_of_number_eq hp hl hal
    exact ⟨m, hmp, rfl⟩

theorem isWalked_rows (hl : l ∈ (t.numbered 0).walk []) :
    t.rows.IsWalked l.tree.number (l.tree.map Prod.fst).labels
      ((l.tree.map Prod.fst).gather putLast) ((l.tree.label :: l.above).map Prod.fst) where
  preOrder := by rw [Table.preOrder, walkFrom_rows _ l hl, gather_cons]
  postOrder := walkFrom_rows _ l hl
  ancestors := ancestors_rows l hl
  contiguous := by rw [numbers_below hl, List.length_range']
  mem_down j := mem_numbers_below hl
  perm := gather_putLast_perm _
  children_first j hj r hr := by
    obtain ⟨m, hm, rfl⟩ := (mem_labels_map_fst l.above).1 ((gather_putLast_perm _).mem_iff.1 hj)
    obtain ⟨n, hn, hnm, rfl⟩ := getElem?_rows.1 hr
    obtain rfl := eq_of_number_eq hn (mem_walk_of_mem_walk hl hm) hnm
    have hmap : ⟨n.tree.map Prod.fst, n.above.map Prod.fst⟩ ∈
        (l.tree.map Prod.fst).walk (l.above.map Prod.fst) := by
      rw [walk_map]
      exact List.mem_map.2 ⟨n, hm, rfl⟩
    have hsublist := children_sublist_gather_putLast hmap
    rw [children_map, List.map_map, label_map] at hsublist
    have hnumber : label ∘ map Prod.fst = (number : Tree (Nat × α) → Nat) := by
      funext u
      exact label_map Prod.fst u
    rwa [hnumber] at hsublist
  head := rfl
  chain := (path_rows l hl).1
  last := (path_rows l hl).2

/-! ## The rows that walks meet -/

theorem labelsAt_rows {as : List (Nat × α)} (h : ∀ a ∈ as, a ∈ (t.numbered 0).labels) :
    t.rows.labelsAt (as.map Prod.fst) = as.map Prod.snd := by
  rw [Table.labelsAt, List.filterMap_map, ← List.filterMap_eq_map]
  refine List.filterMap_congr fun a ha => ?_
  obtain ⟨l, hl, rfl⟩ := List.mem_map.1 (h a ha)
  show t.rows[l.tree.number]?.map Row.label = _
  rw [getElem?_rows.2 ⟨l, hl, rfl, rfl⟩]
  rfl

/-- The rows that walks from the row of a node meet are the nodes that walks of the tree meet. -/
theorem labelsAt_walked (hl : l ∈ (t.numbered 0).walk []) :
    t.rows.labelsAt (l.tree.map Prod.fst).labels = (l.tree.map Prod.snd).labels ∧
    t.rows.labelsAt ((l.tree.map Prod.fst).gather putLast) = (l.tree.map Prod.snd).gather putLast ∧
    t.rows.labelsAt ((l.tree.label :: l.above).map Prod.fst) =
      (l.tree.label :: l.above).map Prod.snd := by
  have hlabels : ∀ a ∈ l.tree.labels, a ∈ (t.numbered 0).labels := by
    rw [← map_label_walk l.tree l.above]
    intro a ha
    obtain ⟨m, hm, rfl⟩ := List.mem_map.1 ha
    exact List.mem_map_of_mem (mem_walk_of_mem_walk hl hm)
  have hputLast : ∀ (β : Type) (f : Nat × α → β) (a : Nat × α) (below : List (Nat × α)),
      putLast (f a) (below.map f) = (putLast a below).map f := by
    intro β f a below
    rw [putLast, putLast, List.map_append]
    rfl
  refine ⟨?_, ?_, ?_⟩
  · rw [labels_map, labels_map, labelsAt_rows hlabels]
  · rw [gather_map (hputLast Nat Prod.fst), gather_map (hputLast α Prod.snd)]
    exact labelsAt_rows fun a ha => hlabels a ((gather_putLast_perm l.tree).mem_iff.1 ha)
  · refine labelsAt_rows fun a ha => ?_
    obtain ⟨p, hp, rfl, -⟩ := exists_mem_walk_of_mem_above l hl ha
    exact List.mem_map_of_mem hp

/-- What walks find from any row of the table of a tree, and which nodes these are. -/
theorem exists_walked {i : Nat} {r : Row α} (hr : t.rows[i]? = some r) :
    ∃ l : Located α, (t.walk [])[i]? = some l ∧ r.label = l.tree.label ∧
      ∃ down up path, t.rows.IsWalked i down up path ∧
        t.rows.labelsAt down = l.tree.labels ∧
        t.rows.labelsAt up = (l.tree.walkUp l.above).map (fun m => m.tree.label) ∧
        t.rows.labelsAt path = l.tree.label :: l.above := by
  obtain ⟨l, hl, rfl, rfl⟩ := getElem?_rows.1 hr
  obtain ⟨hdown, hup, hpath⟩ := labelsAt_walked hl
  refine ⟨⟨l.tree.map Prod.snd, l.above.map Prod.snd⟩, ?_, (label_map Prod.snd l.tree).symm,
    _, _, _, isWalked_rows hl, hdown, ?_, ?_⟩
  · have hwalk := walk_map_nil Prod.snd (t.numbered 0)
    rw [map_snd_numbered] at hwalk
    rw [hwalk, List.getElem?_map, getElem?_walk_number hl]
    rfl
  · rw [hup, gather_putLast]
  · rw [hpath, label_map]
    rfl

end Numbers

end Tree

end ChartLowering
