import ChartLowering.Proofs.Names.Areas
import ChartLowering.Proofs.Tree.Lockstep

/-
  A view inside another one, and by itself.

  A view that is a child of a concatenation has the same views below it as it has by itself: only their
  names are moved below that of the child, and the data that they may inherit are others
  (`bare_build_under`). So the nodes of the two trees correspond, a child's address going on with the
  child's position (`Encloses`). Names of parts are moved with the views (`Encloses.partName_eq`), and
  corresponding nodes have live sizes together (`Encloses.hasLiveSize_eq`).
-/

namespace ChartLowering

namespace View

/-- What a view is called, how it is composed, and the size that is given for it. -/
def bare (v : View) : View :=
  { v with ownData := none, data := none, scope := .empty, components := .empty }

/-- The view with its name moved below another one. -/
def under (outer : String) (v : View) : View := { v with name := Text.under outer v.name }

end View

theorem ViewSpec.mem_basesAll {specs : List ViewSpec} {b : ViewBase} :
    b ∈ ViewSpec.basesAll specs ↔ ∃ v ∈ specs, b ∈ v.bases := by
  induction specs with
  | nil => simp [ViewSpec.basesAll]
  | cons v rest ih => rw [ViewSpec.basesAll, List.mem_append, ih]; simp

/-- The views of a concatenation without names have none. -/
theorem ViewSpec.unnamed_of_mem {base : ViewBase} {children : List ViewSpec} {direction : Direction}
    {r : ResolveSpec} (h : (ViewSpec.concat base children direction r).Unnamed) {v : ViewSpec}
    (hv : v ∈ children) : v.Unnamed := by
  intro b hb
  refine h b ?_
  rw [ViewSpec.bases]
  exact List.mem_cons_of_mem _ (ViewSpec.mem_basesAll.2 ⟨v, hv, hb⟩)

namespace ViewTree

open View

/-! ## Building below another view -/

theorem bare_viewOf (name : String) (form : ViewForm) (base : ViewBase)
    (inherited : Option DataSpec) : (viewOf name form base inherited).bare =
      ⟨name, form, base.width, base.height, none, none, .empty, .empty⟩ := by
  unfold viewOf
  simp only
  split <;> rfl

/-- Siblings are built one by one, each under the name of its position. -/
theorem buildAll_eq_map (parent : String) (position : Nat → String) (inherited : Option DataSpec)
    (specs : List ViewSpec) (i : Nat) :
    buildAll parent position inherited i specs = (specs.zipIdx i).map fun e =>
      build (childName parent (position e.2) e.1.base.name) inherited e.1 := by
  induction specs generalizing i with
  | nil => rfl
  | cons spec rest ih => rw [buildAll, ih, List.zipIdx_cons, List.map_cons]

section Under

variable {outer : String} (houter : outer ≠ "")

include houter

theorem childName_under (parent : String) {position : String} (h : position ≠ "")
    {own : Option String} (hown : own.getD "" = "") :
    childName (Text.under outer parent) position own =
      Text.under outer (childName parent position own) := by
  rw [childName_unnamed _ _ hown, childName_unnamed _ _ hown, Text.join_under houter parent h]

mutual

/-- A view without names is built below another one as it is by itself, but for the names, which are
moved, and the data. -/
theorem bare_build_under (name : String) (inherited further : Option DataSpec) :
    ∀ spec : ViewSpec, spec.Unnamed →
      (build (Text.under outer name) inherited spec).map View.bare =
        (build name further spec).map fun v => v.bare.under outer
  | .unit base u, _ => by
    rw [build, build, Tree.map_node, Tree.map_node, bare_viewOf, bare_viewOf]
    rfl
  | .layer base children r, h => by
    rw [build, build, Tree.map_node, Tree.map_node, bare_viewOf, bare_viewOf,
      bare_buildAll_under name (fun i => (isPosition_layer i).2) _
        (viewOf name (.layer r) base further).data 0 children
        fun b hb => h b (by rw [ViewSpec.bases]; exact List.mem_cons_of_mem _ hb)]
    rfl
  | .facet base mapping child r, h => by
    have hchild : child.Unnamed := fun b hb =>
      h b (by rw [ViewSpec.bases]; exact List.mem_cons_of_mem _ hb)
    rw [build, build, Tree.map_node, Tree.map_node, bare_viewOf, bare_viewOf, List.map_singleton,
      List.map_singleton, childName_under houter name isPosition_child.2 (hchild _ child.base_mem_bases),
      bare_build_under _ _ (viewOf name (.facet mapping r) base further).data child hchild]
    rfl
  | .concat base children direction r, h => by
    rw [build, build, Tree.map_node, Tree.map_node, bare_viewOf, bare_viewOf,
      bare_buildAll_under name (fun i => (isPosition_concat i).2) _
        (viewOf name (.concat r) base further).data 0 children
        fun b hb => h b (by rw [ViewSpec.bases]; exact List.mem_cons_of_mem _ hb)]
    rfl

theorem bare_buildAll_under (parent : String) {position : Nat → String}
    (hposition : ∀ i, position i ≠ "") (inherited further : Option DataSpec) (i : Nat) :
    ∀ specs : List ViewSpec, (∀ b ∈ ViewSpec.basesAll specs, b.name.getD "" = "") →
      (buildAll (Text.under outer parent) position inherited i specs).map (Tree.map View.bare) =
        (buildAll parent position further i specs).map (Tree.map fun v => v.bare.under outer)
  | [], _ => rfl
  | child :: rest, h => by
    rw [ViewSpec.basesAll, List.forall_mem_append] at h
    rw [buildAll, buildAll, List.map_cons, List.map_cons,
      childName_under houter parent (hposition i) (h.1 _ child.base_mem_bases),
      bare_build_under _ _ further child h.1, bare_buildAll_under parent hposition _ further _ rest h.2]

end

end Under

/-! ## Names in a tree without names -/

/-- Without names of users the names of views are made of word characters. -/
theorem isPart_name (settings : Settings) {t : TopLevelSpec} (h : t.view.Unnamed) :
    ∀ l ∈ (t.resolved settings).walk [], Text.IsPart l.tree.label.name := by
  intro l hl
  obtain ⟨a, ha⟩ := Tree.mem_walk_iff_locate?.1 hl
  have hroot : (t.resolved settings).label.name = "" := by
    have hlabels := congrArg Tree.label (map_name_resolved settings t)
    rw [Tree.label_map, ofSpec, label_map_build] at hlabels
    exact hlabels.trans (h _ t.view.base_mem_bases)
  by_cases hnil : a = []
  · subst hnil
    obtain rfl : ⟨t.resolved settings, []⟩ = l := Option.some.inj ha
    show Text.IsPart (t.resolved settings).label.name
    rw [hroot]
    exact ⟨rfl, rfl⟩
  · rw [← List.append_nil a] at ha
    obtain ⟨position, hposition, hname⟩ := name_below (placed_resolved settings h) rfl ha hnil
    have hjoin : l.tree.label.name = position := by
      rw [hname, hroot, Text.join_unnamed]
    rw [hjoin]
    exact hposition.1

/-! ## Enclosed trees -/

/-- A tree that has another one as its child `i`, but for the data, with all names moved below
`outer`. -/
structure Encloses (outer : String) (i : Nat) (t u : ViewTree) : Prop where
  child : ∃ w, t.children[i]? = some w ∧ w.map View.bare = u.map fun v => v.bare.under outer
  kind : t.label.kind ≠ .layer
  position : IsPosition outer
  named : ∀ m ∈ u.walk [], Text.IsPart m.tree.label.name

section Concatenation

theorem form_of_bare {t : ViewTree} {v : View} {kids : List ViewTree}
    (h : t.map View.bare = .node v kids) : t.label.form = v.form := by
  obtain ⟨w, others⟩ := t
  rw [Tree.map_node] at h
  have hform := congrArg View.form (Tree.node.inj h).1
  exact hform

theorem children_of_bare {t : ViewTree} {v : View} {kids : List ViewTree}
    (h : t.map View.bare = .node v kids) : t.children.map (Tree.map View.bare) = kids := by
  rw [← Tree.children_map, h, Tree.children]

variable (settings : Settings) (base : ViewBase) (children : List ViewSpec)
  (direction : Direction) (r : ResolveSpec) (datasets : OrderedMap String (List Fields))
  (config : Config)

/-- The views of a resolved concatenation are those that were built, but for what resolving them has
changed. -/
theorem bare_concat : ∃ inherited,
    ((⟨.concat base children direction r, datasets, config⟩ : TopLevelSpec).resolved settings).map
        View.bare =
      .node ⟨base.name.getD "", .concat r, base.width, base.height, none, none, .empty, .empty⟩
        (children.zipIdx.map fun e => (build
          (childName (base.name.getD "") (concatPosition e.2) e.1.base.name) inherited e.1).map
            View.bare) := by
  refine ⟨(viewOf (base.name.getD "") (.concat r) base none).data, ?_⟩
  rw [map_resolved (f := View.bare) (fun _ _ => rfl) (fun _ => rfl), ofSpec, build, Tree.map_node,
    bare_viewOf, buildAll_eq_map, List.map_map]
  rfl

theorem form_concat : ((⟨.concat base children direction r, datasets, config⟩ :
    TopLevelSpec).resolved settings).label.form = .concat r := by
  obtain ⟨inherited, hbare⟩ := bare_concat settings base children direction r datasets config
  exact form_of_bare hbare

theorem length_children_concat : ((⟨.concat base children direction r, datasets, config⟩ :
    TopLevelSpec).resolved settings).children.length = children.length := by
  obtain ⟨inherited, hbare⟩ := bare_concat settings base children direction r datasets config
  have hlength := congrArg List.length (children_of_bare hbare)
  rwa [List.length_map, List.length_map, List.length_zipIdx] at hlength

variable {base children direction r datasets config}

/-- A concatenation encloses each of its views. -/
theorem encloses_concat (h : (ViewSpec.concat base children direction r).Unnamed) {i : Nat}
    {v : ViewSpec} (hv : children[i]? = some v) :
    Encloses (concatPosition i) i
      ((⟨.concat base children direction r, datasets, config⟩ : TopLevelSpec).resolved settings)
      ((⟨v, datasets, config⟩ : TopLevelSpec).resolved settings) := by
  have hunnamed := ViewSpec.unnamed_of_mem h (List.mem_of_getElem? hv)
  have hroot : base.name.getD "" = "" := h base (by rw [ViewSpec.bases]; exact List.mem_cons_self)
  have hname : childName (base.name.getD "") (concatPosition i) v.base.name =
      Text.under (concatPosition i) "" := by
    rw [hroot, childName_unnamed _ _ (hunnamed _ v.base_mem_bases)]
    rfl
  refine ⟨?child, ?kind, isPosition_concat i, isPart_name settings hunnamed⟩
  case child =>
    obtain ⟨inherited, hbare⟩ := bare_concat settings base children direction r datasets config
    have halone := map_resolved (f := fun w => w.bare.under (concatPosition i)) (fun _ _ => rfl)
      (fun _ => rfl) settings ⟨v, datasets, config⟩
    rw [ofSpec, hunnamed _ v.base_mem_bases] at halone
    have hget := congrArg (fun kids => kids[i]?) (children_of_bare hbare)
    simp only [List.getElem?_map, List.getElem?_zipIdx, hv, Option.map_some, Nat.zero_add,
      hname] at hget
    obtain ⟨w, hw, hmap⟩ := Option.map_eq_some_iff.1 hget
    refine ⟨w, hw, hmap.trans ?_⟩
    rw [halone]
    exact bare_build_under (isPosition_concat i).2 "" _ none v hunnamed
  case kind =>
    unfold View.kind
    rw [form_concat]
    show ViewKind.concat ≠ .layer
    decide

end Concatenation

namespace Encloses

variable {outer : String} {i : Nat} {t u : ViewTree} (h : Encloses outer i t u)

include h

/-- The nodes of the enclosed tree are nodes of the other one. -/
theorem exists_outer {a : List Nat} {m : Located View} (hm : u.locate? a = some m) :
    ∃ l, t.locate? (a ++ [i]) = some l ∧
      l.tree.map View.bare = m.tree.map fun v => v.bare.under outer := by
  obtain ⟨w, hw, hshape⟩ := h.child
  obtain ⟨l, hl, hmap⟩ := Tree.exists_locate?_of_map_eq hshape hm
  refine ⟨⟨l.tree, l.above ++ [t.label]⟩, ?_, hmap⟩
  rw [Tree.locate?_append_singleton, hw, Option.bind_some, hl]
  rfl

variable {a : List Nat} {l m : Located View} (hl : t.locate? (a ++ [i]) = some l)
  (hm : u.locate? a = some m)

include hl hm

theorem tree_eq : l.tree.map View.bare = m.tree.map fun v => v.bare.under outer := by
  obtain ⟨k, hk, hmap⟩ := h.exists_outer hm
  rw [Option.some.inj (hl.symm.trans hk)]
  exact hmap

theorem bare_eq : l.tree.label.bare = m.tree.label.bare.under outer := by
  have hlabel := congrArg Tree.label (h.tree_eq hl hm)
  rwa [Tree.label_map, Tree.label_map] at hlabel

theorem form_eq : l.tree.label.form = m.tree.label.form := by
  show l.tree.label.bare.form = _
  rw [h.bare_eq hl hm]
  rfl

theorem kind_eq : l.tree.label.kind = m.tree.label.kind := by
  unfold View.kind
  rw [h.form_eq hl hm]

/-- The names of parts are moved below the outer name. -/
theorem partName_eq {part : String} (hpart : Text.IsPart part) :
    l.tree.label.partName part = outer ++ "_" ++ m.tree.label.partName part := by
  have hname : l.tree.label.name = Text.under outer m.tree.label.name := by
    show l.tree.label.bare.name = _
    rw [h.bare_eq hl hm]
    rfl
  unfold View.partName
  rw [hname]
  exact Text.qualified_under h.position.2 h.position.1 (h.named m (Tree.mem_walk_of_locate? hm)) hpart

theorem componentName_eq {s : Slot} (hs : s ∈ sharingOrder) :
    l.tree.label.componentName s.family s.channel =
      outer ++ "_" ++ m.tree.label.componentName s.family s.channel :=
  h.partName_eq hl hm (isPart_suffix s hs)

omit hl in
/-- The area of a node is the same one, seen from the root of the other tree. -/
theorem areaOf_eq : t.areaOf (a ++ [i]) = u.areaOf a ++ [i] := by
  induction a generalizing m with
  | nil => exact areaOf_of_not_layer rfl h.kind i
  | cons j a ih =>
    obtain ⟨q, hq, -, -⟩ := locate?_parent hm
    obtain ⟨p, hp, -⟩ := h.exists_outer hq
    have hkind := h.kind_eq hp hq
    by_cases hlayer : q.tree.label.kind = .layer
    · rw [areaOf_of_layer hq hlayer, ← ih hq]
      exact areaOf_of_layer hp (hkind.trans hlayer) j
    · rw [areaOf_of_not_layer hq hlayer]
      exact areaOf_of_not_layer hp (fun hp => hlayer (hkind.symm.trans hp)) j

/-- A size is live in both trees or in none. -/
theorem hasLiveSize_eq (ht : SizeScoped t) (hu : SizeScoped u)
    (htnames : t.Everywhere fun w => NumberedNames (w.map View.name))
    (hunames : u.Everywhere fun w => NumberedNames (w.map View.name)) (d : Dimension) :
    l.tree.label.hasLiveSize l.above d = m.tree.label.hasLiveSize m.above d := by
  have hsized : l.tree.label.isSized = m.tree.label.isSized := by
    unfold View.isSized
    rw [h.kind_eq hl hm]
  rw [Bool.eq_iff_iff, ht.hasLiveSize_iff htnames hl, hu.hasLiveSize_iff hunames hm, hsized,
    h.areaOf_eq hm, List.append_left_inj]

end Encloses

/-! ## Given sizes -/

/-- The first size given in a group of layers does not depend on what the views are called. -/
theorem groupSize?_map {f : View → View} (hkind : ∀ v, (f v).kind = v.kind)
    (hsize : ∀ v d, (f v).explicitSize d = v.explicitSize d) (d : Dimension) (t : ViewTree) :
    groupSize? d (t.map f) = groupSize? d t := by
  have hsized : ∀ v, (f v).isSized = v.isSized := fun v => by
    unfold View.isSized
    rw [hkind]
  induction t using Tree.induction with
  | step v kids ih =>
    have hkids : groupSizeAll? d (kids.map (Tree.map f)) = groupSizeAll? d kids := by
      induction kids with
      | nil => rfl
      | cons k rest ihrest =>
        obtain ⟨hk, hrest⟩ := List.forall_mem_cons.1 ih
        rw [List.map_cons, groupSizeAll?, groupSizeAll?, hk, ihrest hrest, Tree.label_map, hsized]
    rw [Tree.map_node, groupSize?, groupSize?, hsize, hkind, hkids]

/-- A size has the same value in both trees. -/
theorem Encloses.defaultSize_eq {outer : String} {i : Nat} {t u : ViewTree} (h : Encloses outer i t u)
    {a : List Nat} {l m : Located View} (hl : t.locate? (a ++ [i]) = some l)
    (hm : u.locate? a = some m) (config : Config) (settings : Settings) (d : Dimension) :
    defaultSize config settings d l.tree = defaultSize config settings d m.tree := by
  have hgroup := congrArg (groupSize? d) (h.tree_eq hl hm)
  rw [groupSize?_map (f := View.bare) (fun _ => rfl) (fun _ e => by cases e <;> rfl),
    groupSize?_map (f := fun v => v.bare.under outer) (fun _ => rfl)
      (fun _ e => by cases e <;> rfl)] at hgroup
  unfold defaultSize
  rw [hgroup]

end ViewTree

end ChartLowering
