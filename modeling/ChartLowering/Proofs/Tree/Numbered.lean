import ChartLowering.Proofs.Tree.Address

/-
  Numbers of nodes.

  The number of a node is its position in `walk`, counted from the number of the root (`numbered`).
  The numbers of a tree are therefore a block without gaps (`numbers_numbered`), and so are those of
  any subtree (`exists_numbered_of_mem_walk`). A node is found in the walk under its own number, so
  nodes at different places of the walk have different addresses (`pairwise_walk`).
-/

namespace ChartLowering

universe u

namespace Tree

variable {α : Type u}

mutual

/-- The tree with the number of every node beside its label; the root has the number `i`. -/
def numbered (i : Nat) : Tree α → Tree (Nat × α)
  | .node a kids => .node (i, a) (numberedAll (i + 1) kids)

def numberedAll (i : Nat) : List (Tree α) → List (Tree (Nat × α))
  | [] => []
  | t :: rest => numbered i t :: numberedAll (i + t.size) rest

end

/-- The number of the root. -/
def number (t : Tree (Nat × α)) : Nat := t.label.1

@[simp] theorem number_numbered (i : Nat) (t : Tree α) : (t.numbered i).number = i := by
  cases t with
  | node a kids => rfl

@[simp] theorem label_numbered (i : Nat) (t : Tree α) : (t.numbered i).label = (i, t.label) := by
  cases t with
  | node a kids => rfl

theorem mem_numberedAll {i : Nat} {ts : List (Tree α)} {u : Tree (Nat × α)}
    (h : u ∈ numberedAll i ts) : ∃ s ∈ ts, u = s.numbered u.number := by
  induction ts generalizing i with
  | nil => cases h
  | cons t rest ih =>
    rw [numberedAll, List.mem_cons] at h
    rcases h with rfl | h
    · exact ⟨t, List.mem_cons_self, by rw [number_numbered]⟩
    · obtain ⟨s, hs, hu⟩ := ih h
      exact ⟨s, List.mem_cons_of_mem t hs, hu⟩

mutual

/-- Without the numbers the tree is what it was. -/
theorem map_snd_numbered (i : Nat) : ∀ t : Tree α, (t.numbered i).map Prod.snd = t
  | .node a kids => by rw [numbered, map_node, map_snd_numberedAll (i + 1) kids]

theorem map_snd_numberedAll (i : Nat) :
    ∀ ts : List (Tree α), (numberedAll i ts).map (map Prod.snd) = ts
  | [] => rfl
  | t :: rest => by
    rw [numberedAll, List.map_cons, map_snd_numbered i t, map_snd_numberedAll (i + t.size) rest]

end

mutual

theorem map_fst_numbered (i : Nat) : ∀ t : Tree α, (t.numbered i).map Prod.fst = t.indices i
  | .node a kids => by rw [numbered, map_node, indices, map_fst_numberedAll (i + 1) kids]

theorem map_fst_numberedAll (i : Nat) :
    ∀ ts : List (Tree α), (numberedAll i ts).map (map Prod.fst) = indicesAll i ts
  | [] => rfl
  | t :: rest => by
    rw [numberedAll, List.map_cons, indicesAll, map_fst_numbered i t,
      map_fst_numberedAll (i + t.size) rest]

end

mutual

/-- The numbers of a tree are a block without gaps. -/
theorem numbers_numbered (i : Nat) :
    ∀ t : Tree α, (t.numbered i).labels.map Prod.fst = List.range' i t.size
  | .node a kids => by
    rw [numbered, labels_node, List.map_cons, numbers_numberedAll (i + 1) kids, size,
      List.range'_succ]

theorem numbers_numberedAll (i : Nat) : ∀ ts : List (Tree α),
    ((numberedAll i ts).flatMap labels).map Prod.fst = List.range' i (sizes ts)
  | [] => rfl
  | t :: rest => by
    rw [numberedAll, List.flatMap_cons, List.map_append, numbers_numbered i t,
      numbers_numberedAll (i + t.size) rest, sizes, List.range'_append_1]

end

theorem size_numbered (i : Nat) (t : Tree α) : (t.numbered i).size = t.size := by
  have hlength := congrArg List.length (numbers_numbered i t)
  rwa [List.length_map, labels, List.length_map, length_walk, List.length_range'] at hlength

/-- A node of a numbered tree is itself a tree that is numbered, from its own number on. -/
theorem exists_numbered_of_mem_walk {i : Nat} {t : Tree α} {above : List (Nat × α)}
    {l : Located (Nat × α)} (h : l ∈ (t.numbered i).walk above) :
    ∃ s : Tree α, l.tree = s.numbered l.tree.number := by
  induction t using Tree.induction generalizing i above with
  | step a kids ih =>
    rcases mem_walk.1 h with rfl | ⟨u, hu, hlu⟩
    · exact ⟨.node a kids, by rw [number_numbered]⟩
    · obtain ⟨s, hs, hus⟩ := mem_numberedAll hu
      rw [hus] at hlu
      exact ih s hs hlu

theorem le_number_of_mem_numberedAll {i : Nat} {ts : List (Tree α)} {u : Tree (Nat × α)}
    (h : u ∈ numberedAll i ts) : i ≤ u.number := by
  induction ts generalizing i with
  | nil => cases h
  | cons t rest ih =>
    rw [numberedAll, List.mem_cons] at h
    rcases h with rfl | h
    · exact Nat.le_of_eq (number_numbered i t).symm
    · exact Nat.le_trans (Nat.le_add_right i t.size) (ih h)

theorem pairwise_numberedAll (i : Nat) (ts : List (Tree α)) :
    ((numberedAll i ts).map number).Pairwise (· < ·) := by
  induction ts generalizing i with
  | nil => exact List.Pairwise.nil
  | cons t rest ih =>
    rw [numberedAll, List.map_cons, List.pairwise_cons, number_numbered]
    refine ⟨?_, ih (i + t.size)⟩
    intro n hn
    obtain ⟨u, hu, rfl⟩ := List.mem_map.1 hn
    have hle := le_number_of_mem_numberedAll hu
    have hpos : 0 < t.size := by cases t with | node a kids => exact Nat.succ_pos _
    omega

theorem map_number_walk (i : Nat) (t : Tree α) :
    ((t.numbered i).walk []).map (fun l => l.tree.number) = List.range' i t.size := by
  have hnumbers := numbers_numbered i t
  unfold labels at hnumbers
  rwa [List.map_map] at hnumbers

/-- A node is found in the walk under its number. -/
theorem getElem?_walk_number {t : Tree α} {l : Located (Nat × α)}
    (h : l ∈ (t.numbered 0).walk []) : ((t.numbered 0).walk [])[l.tree.number]? = some l := by
  obtain ⟨j, hj⟩ := List.mem_iff_getElem?.1 h
  have hnumber : (List.range t.size)[j]? = some l.tree.number := by
    rw [List.range_eq_range', ← map_number_walk 0 t, List.getElem?_map, hj]
    rfl
  obtain ⟨hlt, hnumber⟩ := List.getElem?_eq_some_iff.1 hnumber
  rw [← hnumber, List.getElem_range, hj]

/-- What holds of nodes at different addresses holds of any two in the order of the walk. -/
theorem pairwise_walk {R : Located α → Located α → Prop} {t : Tree α}
    (h : ∀ a b l m, t.locate? a = some l → t.locate? b = some m → a ≠ b → R l m) :
    (t.walk []).Pairwise R := by
  have hplain : ∀ a l, (t.numbered 0).locate? a = some l →
      t.locate? a = some ⟨l.tree.map Prod.snd, l.above.map Prod.snd⟩ := by
    intro a l hl
    have hmap := locate?_map Prod.snd (t.numbered 0) a
    rwa [map_snd_numbered, hl] at hmap
  have hwalk := walk_map_nil Prod.snd (t.numbered 0)
  rw [map_snd_numbered] at hwalk
  rw [hwalk, List.pairwise_map]
  have hnumbers : (((t.numbered 0).walk []).map fun l => l.tree.number).Nodup := by
    rw [map_number_walk]
    exact List.nodup_range'
  refine (List.pairwise_map.1 hnumbers).imp_of_mem ?_
  intro l m hl hm hne
  obtain ⟨a, ha⟩ := mem_walk_iff_locate?.1 hl
  obtain ⟨b, hb⟩ := mem_walk_iff_locate?.1 hm
  refine h a b _ _ (hplain a l ha) (hplain b m hb) ?_
  rintro rfl
  exact hne (by rw [Option.some.inj (ha.symm.trans hb)])

end Tree

end ChartLowering
