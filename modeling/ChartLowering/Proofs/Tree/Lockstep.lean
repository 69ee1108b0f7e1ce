import ChartLowering.Proofs.Tree.Address

/-
  Trees of one shape.

  Two trees that are the same once their labels are mapped have nodes at the same addresses, and the
  subtrees there are the same in that sense too (`exists_locate?_of_map_eq`). So both walks run in
  step, and what they gather is the same if it is so for each pair of nodes (`flatMap_walk_eq`).
-/

namespace ChartLowering

universe u v w

/-- Lists of one length have the same images if their items have, place by place. -/
theorem map_eq_map_of_getElem? {α : Type u} {β : Type v} {γ : Type w} {f : α → γ} {g : β → γ}
    {as : List α} {bs : List β} (hlength : as.length = bs.length)
    (h : ∀ (i : Nat) a b, as[i]? = some a → bs[i]? = some b → f a = g b) : as.map f = bs.map g := by
  refine List.ext_getElem (by rw [List.length_map, List.length_map, hlength]) ?_
  intro i ha hb
  rw [List.getElem_map, List.getElem_map]
  exact h i _ _ (List.getElem?_eq_getElem _) (List.getElem?_eq_getElem _)

namespace Tree

variable {α β γ δ : Type} {f : α → γ} {g : β → γ}

theorem length_children_of_map_eq {t : Tree α} {u : Tree β} (h : t.map f = u.map g) :
    t.children.length = u.children.length := by
  have hlength := congrArg (fun r => r.children.length) h
  simpa only [children_map, List.length_map] using hlength

theorem children_of_map_eq {t : Tree α} {u : Tree β} (h : t.map f = u.map g) {i : Nat}
    {k : Tree α} {j : Tree β} (hk : t.children[i]? = some k) (hj : u.children[i]? = some j) :
    k.map f = j.map g := by
  have hget := congrArg (fun r => r.children[i]?) h
  simp only [children_map, List.getElem?_map, hk, hj, Option.map_some] at hget
  exact Option.some.inj hget

/-- Where one of two trees of the same shape has a node, the other one has a node of the same shape. -/
theorem exists_locate?_of_map_eq {t : Tree α} {u : Tree β} (h : t.map f = u.map g) {a : List Nat}
    {m : Located β} (hm : u.locate? a = some m) :
    ∃ l, t.locate? a = some l ∧ l.tree.map f = m.tree.map g := by
  have hmap := (locate?_map f t a).symm.trans ((congrArg (locate? · a) h).trans (locate?_map g u a))
  rw [hm, Option.map_some, Option.map_eq_some_iff] at hmap
  obtain ⟨l, hl, heq⟩ := hmap
  exact ⟨l, hl, (Located.mk.inj heq).1⟩

/-- What is gathered on the walks of two trees of the same shape is the same if it is at every address. -/
theorem flatMap_walk_eq {F : Located α → List δ} {G : Located β → List δ} (t : Tree α) :
    ∀ (u : Tree β) (above : List α) (further : List β), t.map f = u.map g →
      (∀ a l m, t.locate? a = some l → u.locate? a = some m →
        F ⟨l.tree, l.above ++ above⟩ = G ⟨m.tree, m.above ++ further⟩) →
      (t.walk above).flatMap F = (u.walk further).flatMap G := by
  induction t using Tree.induction with
  | step x kids ih =>
    intro u above further hshape h
    obtain ⟨y, others⟩ := u
    rw [walk_node, walk_node, List.flatMap_cons, List.flatMap_cons, List.flatMap_assoc,
      List.flatMap_assoc, List.flatMap_def, List.flatMap_def (l := others)]
    congr 1
    · exact h [] _ _ rfl rfl
    · congr 1
      refine map_eq_map_of_getElem? (length_children_of_map_eq hshape) ?_
      intro i k j hk hj
      refine ih k (List.mem_of_getElem? hk) j _ _ (children_of_map_eq hshape hk hj) ?_
      -- below the child an address goes on with the child's position
      intro a l m hl hm
      have hlat := locate?_append_singleton (.node x kids) a i
      have hmat := locate?_append_singleton (.node y others) a i
      rw [children, hk, Option.bind_some, hl] at hlat
      rw [children, hj, Option.bind_some, hm] at hmat
      have hboth := h (a ++ [i]) _ _ hlat hmat
      rwa [List.append_assoc, List.append_assoc] at hboth

/-- What is gathered on a walk comes from the children in order, if nothing comes from the root. -/
theorem flatMap_walk_of_children {F : Located α → List δ} {H : β × Nat → List δ} {t : Tree α}
    {docs : List β} (hroot : F ⟨t, []⟩ = []) (hlength : t.children.length = docs.length)
    (h : ∀ (i : Nat) k d, t.children[i]? = some k → docs[i]? = some d →
      (k.walk [t.label]).flatMap F = H (d, i)) : (t.walk []).flatMap F = docs.zipIdx.flatMap H := by
  obtain ⟨x, kids⟩ := t
  rw [walk_node, List.flatMap_cons, hroot, List.nil_append, List.flatMap_assoc, List.flatMap_def,
    List.flatMap_def (l := docs.zipIdx)]
  congr 1
  refine map_eq_map_of_getElem? (hlength.trans List.length_zipIdx.symm) ?_
  intro i k e hk he
  rw [List.getElem?_zipIdx, Nat.zero_add, Option.map_eq_some_iff] at he
  obtain ⟨d, hd, rfl⟩ := he
  exact h i k d hk hd

end Tree

end ChartLowering
