import ChartLowering.Proofs.Sharing.Resolved
import ChartLowering.Proofs.Tree.Table

/-
  The table of views.

  A specification can be entered into a table of views while going through it: every view gets a row
  without children at the end of the table, and is put down as a child of its parent once everything
  below it has been entered (`add`). What is entered is the table of the tree that is built otherwise
  (`rowsOf_eq`). It has one row for every view of the specification, all walks of it end, and a view
  reads the data of the nearest view around it that has any (`rowsOf_wellFormed`).
-/

namespace ChartLowering

namespace Table

variable {α : Type}

/-- The row of a node that is entered next, without children. -/
def nextRow (rows : Table α) (parent : Option Nat) (a : α) : Row α := ⟨rows.length, parent, [], a⟩

/-- Puts row `c` down as a further child of row `p`. -/
def addChild (rows : Table α) (p c : Nat) : Table α :=
  rows.modify p fun r => { r with children := r.children ++ [c] }

theorem addChild_append (front : Table α) (r : Row α) (rest : Table α) (c : Nat) :
    Table.addChild (front ++ r :: rest) front.length c =
      front ++ { r with children := r.children ++ [c] } :: rest := by
  induction front with
  | nil => rfl
  | cons s front ih => exact congrArg (s :: ·) ih

end Table

namespace ViewSpec

/-- The views that a view is composed of. -/
def children : ViewSpec → List ViewSpec
  | .unit _ _ => []
  | .layer _ children _ => children
  | .facet _ _ child _ => [child]
  | .concat _ children _ _ => children

mutual

/-- All views of a specification, every view before its children. -/
def views : ViewSpec → List ViewSpec
  | .unit base u => [.unit base u]
  | .layer base children r => .layer base children r :: viewsAll children
  | .facet base mapping child r => .facet base mapping child r :: views child
  | .concat base children d r => .concat base children d r :: viewsAll children

def viewsAll : List ViewSpec → List ViewSpec
  | [] => []
  | v :: rest => views v ++ viewsAll rest

end

end ViewSpec

namespace ViewTree

open ChartLowering.Tree View

/-! ## Entering views -/

mutual

/-- Enters a view with a given name below a row, and then what is below it. -/
def add (rows : Table View) (name : String) (parent : Option Nat) (inherited : Option DataSpec) :
    ViewSpec → Table View
  | .unit base u => rows ++ [rows.nextRow parent (viewOf name (.unit u) base inherited)]
  | .layer base children r =>
    let v := viewOf name (.layer r) base inherited
    addAll (rows ++ [rows.nextRow parent v]) name layerPosition rows.length v.data 0 children
  | .facet base mapping child r =>
    let v := viewOf name (.facet mapping r) base inherited
    let entered := rows ++ [rows.nextRow parent v]
    (add entered (childName name "child" child.base.name) (some rows.length) v.data child).addChild
      rows.length entered.length
  | .concat base children _ r =>
    let v := viewOf name (.concat r) base inherited
    addAll (rows ++ [rows.nextRow parent v]) name concatPosition rows.length v.data 0 children

/-- Enters sibling views from position `i` on, one after another. -/
def addAll (rows : Table View) (outer : String) (position : Nat → String) (parent : Nat)
    (inherited : Option DataSpec) (i : Nat) : List ViewSpec → Table View
  | [] => rows
  | child :: rest =>
    let name := childName outer (position i) child.base.name
    let below := add rows name (some parent) inherited child
    addAll (below.addChild parent rows.length) outer position parent inherited (i + 1) rest

end

/-- The table of a whole view. -/
def rowsOf (spec : ViewSpec) : Table View := add [] (spec.base.name.getD "") none none spec

mutual

/-- What is entered are the rows of the tree that is built. -/
theorem add_eq (rows : Table View) (name : String) (inherited : Option DataSpec)
    (above : List (Nat × View)) : ∀ spec : ViewSpec,
    add rows name (above.head?.map Prod.fst) inherited spec =
      rows ++ (build name inherited spec).rowsBelow rows.length above
  | .unit base u => by
    rw [add, build, rowsBelow_node]
    rfl
  | .layer base children r => by
    rw [add, build, rowsBelow_node]
    exact addAll_eq rows (rows.nextRow _ _) [] List.length_append above name layerPosition _ 0
      children
  | .facet base mapping child r => by
    rw [add, build, rowsBelow_node]
    have hadd := add_eq
      (rows ++ [rows.nextRow (above.head?.map Prod.fst)
        (viewOf name (.facet mapping r) base inherited)])
      (childName name "child" child.base.name) (viewOf name (.facet mapping r) base inherited).data
      ((rows.length, viewOf name (.facet mapping r) base inherited) :: above) child
    rw [List.head?_cons, Option.map_some] at hadd
    show Table.addChild (add _ _ _ _ child) _ _ = _
    rw [hadd, List.append_assoc, List.singleton_append, Table.addChild_append, List.length_append,
      numberedAll, numberedAll, List.map_singleton, number_numbered, rowsBelowAll_cons]
    show _ = _ ++ _ :: (_ ++ [])
    rw [List.append_nil]
    rfl
  | .concat base children _ r => by
    rw [add, build, rowsBelow_node]
    exact addAll_eq rows (rows.nextRow _ _) [] List.length_append above name concatPosition _ 0
      children

/-- Siblings fill the end of the table, and their indices the row of their parent, which stands
between rows of earlier nodes and the rows below siblings entered before. -/
theorem addAll_eq (front : Table View) (row : Row View) (added : Table View) {n : Nat}
    (hn : (front ++ row :: added).length = n) (above : List (Nat × View)) (outer : String)
    (position : Nat → String) (inherited : Option DataSpec) (i : Nat) : ∀ children : List ViewSpec,
    addAll (front ++ row :: added) outer position front.length inherited i children =
      front ++
        { row with children := row.children ++
            (numberedAll n (buildAll outer position inherited i children)).map number } ::
        (added ++ rowsBelowAll n ((front.length, row.label) :: above)
          (buildAll outer position inherited i children))
  | [] => by
    show _ = front ++ { row with children := row.children ++ [] } :: (added ++ [])
    rw [List.append_nil, List.append_nil]
    rfl
  | child :: rest => by
    have hadd := add_eq (front ++ row :: added) (childName outer (position i) child.base.name)
      inherited ((front.length, row.label) :: above) child
    rw [List.head?_cons, Option.map_some, hn, List.append_assoc, List.cons_append] at hadd
    have hrest := addAll_eq front { row with children := row.children ++ [n] }
      (added ++ (build (childName outer (position i) child.base.name) inherited child).rowsBelow n
        ((front.length, row.label) :: above))
      (by rw [List.length_append, List.length_cons, List.length_append, length_rowsBelow]) above outer
      position inherited (i + 1) rest
    have hnext : front.length + (added.length +
        (build (childName outer (position i) child.base.name) inherited child).size + 1) =
        n + (build (childName outer (position i) child.base.name) inherited child).size := by
      rw [← hn, List.length_append, List.length_cons]
      omega
    show addAll (Table.addChild (add _ _ _ _ child) _ _) _ _ _ _ _ rest = _
    rw [hadd, hn, Table.addChild_append, hrest, hnext, buildAll, numberedAll, List.map_cons,
      number_numbered, rowsBelowAll_cons, List.append_assoc, List.append_assoc]
    rfl

end

theorem rowsOf_eq (spec : ViewSpec) : rowsOf spec = (ofSpec spec).rows :=
  add_eq [] (spec.base.name.getD "") none [] spec

/-! ## Rows of views -/

theorem kind_viewOf (name : String) (form : ViewForm) (base : ViewBase)
    (inherited : Option DataSpec) : (viewOf name form base inherited).kind = form.kind := by
  rw [View.kind, form_viewOf]

theorem length_buildAll (outer : String) (position : Nat → String) (inherited : Option DataSpec)
    (i : Nat) (children : List ViewSpec) :
    (buildAll outer position inherited i children).length = children.length := by
  induction children generalizing i with
  | nil => rfl
  | cons child rest ih => rw [buildAll, List.length_cons, ih, List.length_cons]

/-- What a node shows of the view that it is the node of. -/
def shown (l : Located View) : ViewKind × Option DataSpec × Nat :=
  (l.tree.label.kind, l.tree.label.ownData, l.tree.children.length)

theorem shown_viewOf (name : String) (form : ViewForm) (base : ViewBase)
    (inherited : Option DataSpec) (kids : List ViewTree) (above : List View) :
    shown ⟨.node (viewOf name form base inherited) kids, above⟩ =
      (form.kind, base.data, kids.length) := by
  show ((viewOf _ _ _ _).kind, (viewOf _ _ _ _).ownData, kids.length) = _
  rw [kind_viewOf, ownData_viewOf]

mutual

/-- The nodes of a tree of views are the views of the specification. -/
theorem views_build (name : String) (inherited : Option DataSpec) (above : List View) :
    ∀ spec : ViewSpec, ((build name inherited spec).walk above).map shown =
      spec.views.map fun v => (v.kind, v.base.data, v.children.length)
  | .unit base u => by
    rw [build, walk, walkAll, List.map_singleton, shown_viewOf]
    rfl
  | .layer base children r => by
    rw [build, walk, List.map_cons, views_buildAll _ _ _ _ 0 children, shown_viewOf, length_buildAll,
      ViewSpec.views]
    rfl
  | .facet base mapping child r => by
    rw [build, walk, walkAll, walkAll, List.append_nil, List.map_cons, views_build _ _ _ child,
      shown_viewOf, ViewSpec.views]
    rfl
  | .concat base children d r => by
    rw [build, walk, List.map_cons, views_buildAll _ _ _ _ 0 children, shown_viewOf, length_buildAll,
      ViewSpec.views]
    rfl

theorem views_buildAll (outer : String) (position : Nat → String) (inherited : Option DataSpec)
    (above : List View) (i : Nat) : ∀ children : List ViewSpec,
    (walkAll above (buildAll outer position inherited i children)).map shown =
      (ViewSpec.viewsAll children).map fun v => (v.kind, v.base.data, v.children.length)
  | [] => rfl
  | child :: rest => by
    rw [buildAll, walkAll, ViewSpec.viewsAll, List.map_append, List.map_append,
      views_build _ inherited above child, views_buildAll outer position inherited above (i + 1) rest]

end

/-! ## Data of rows -/

/-- Whether a view reads its own data, or else those of its parent. -/
def Inherits (l : Located View) : Prop :=
  l.tree.label.data = l.tree.label.ownData.or (l.above.head?.bind View.data)

theorem inherits_viewOf (name : String) (form : ViewForm) (base : ViewBase) (kids : List ViewTree)
    (above : List View) :
    Inherits ⟨.node (viewOf name form base (above.head?.bind View.data)) kids, above⟩ := by
  show (viewOf _ _ _ _).data = (viewOf _ _ _ _).ownData.or _
  rw [data_viewOf, ownData_viewOf]

mutual

theorem inherits_build (name : String) (above : List View) : ∀ spec : ViewSpec,
    ∀ l ∈ (build name (above.head?.bind View.data) spec).walk above, Inherits l
  | .unit base u => by
    rw [build, walk, walkAll, List.forall_mem_singleton]
    exact inherits_viewOf name (.unit u) base [] above
  | .layer base children r => by
    rw [build, walk, List.forall_mem_cons]
    exact ⟨inherits_viewOf name (.layer r) base _ above,
      inherits_buildAll name layerPosition (_ :: above) 0 children⟩
  | .facet base mapping child r => by
    rw [build, walk, walkAll, walkAll, List.append_nil, List.forall_mem_cons]
    exact ⟨inherits_viewOf name (.facet mapping r) base _ above,
      inherits_build (childName name "child" child.base.name) (_ :: above) child⟩
  | .concat base children _ r => by
    rw [build, walk, List.forall_mem_cons]
    exact ⟨inherits_viewOf name (.concat r) base _ above,
      inherits_buildAll name concatPosition (_ :: above) 0 children⟩

theorem inherits_buildAll (outer : String) (position : Nat → String) (above : List View) (i : Nat) :
    ∀ children : List ViewSpec,
    ∀ l ∈ walkAll above (buildAll outer position (above.head?.bind View.data) i children), Inherits l
  | [] => fun _ h => absurd h List.not_mem_nil
  | child :: rest => by
    rw [buildAll, walkAll, List.forall_mem_append]
    exact ⟨inherits_build _ above child, inherits_buildAll outer position above (i + 1) rest⟩

end

theorem findSome?_cons_eq_or (v : View) (vs : List View) :
    (v :: vs).findSome? View.ownData = v.ownData.or (vs.findSome? View.ownData) := by
  rw [List.findSome?_cons]
  cases v.ownData <;> rfl

/-- A view reads the data of the nearest view around it, or itself, that has any. -/
theorem data_eq_findSome? (spec : ViewSpec) : ∀ l ∈ (ofSpec spec).walk [],
    l.tree.label.data = (l.tree.label :: l.above).findSome? View.ownData := by
  have hinherits := inherits_build (spec.base.name.getD "") [] spec
  refine forall_walk_down _ ?_ ?_
  · have hroot : (ofSpec spec).label.data = (ofSpec spec).label.ownData.or none :=
      hinherits _ (self_mem_walk [] (ofSpec spec))
    exact hroot.trans (findSome?_cons_eq_or _ []).symm
  · intro l hl ih u hu
    have hchild : u.label.data = u.label.ownData.or l.tree.label.data :=
      hinherits _ (child_mem_walk hl hu)
    show u.label.data = (u.label :: l.tree.label :: l.above).findSome? View.ownData
    rw [findSome?_cons_eq_or, ← ih, hchild]

/-- The table of the views of a specification is well formed, and has a row for every view. All walks
of it end, and meet the nodes that they meet in the tree. A view reads the data of the nearest view
around it, or itself, that has any. -/
theorem rowsOf_wellFormed (spec : ViewSpec) :
    (rowsOf spec).map Row.label = (ofSpec spec).labels ∧
    (rowsOf spec).map Row.place = (ofSpec spec).places ∧
    (rowsOf spec).IsIndexed ∧
    (rowsOf spec).map (fun r => (r.label.kind, r.label.ownData, r.children.length)) =
      spec.views.map (fun v => (v.kind, v.base.data, v.children.length)) ∧
    ∀ (i : Nat) (r : Row View), (rowsOf spec)[i]? = some r →
      ∃ l, ((ofSpec spec).walk [])[i]? = some l ∧ r.label = l.tree.label ∧
        ∃ down up path, (rowsOf spec).IsWalked i down up path ∧
          (rowsOf spec).labelsAt down = l.tree.labels ∧
          (rowsOf spec).labelsAt up = (l.tree.walkUp l.above).map (fun m => m.tree.label) ∧
          (rowsOf spec).labelsAt path = l.tree.label :: l.above ∧
          r.label.data = ((rowsOf spec).labelsAt path).findSome? View.ownData := by
  rw [rowsOf_eq]
  refine ⟨map_label_rows _, map_place_rows _, isIndexed_rows _, ?_, ?_⟩
  · rw [← views_build (spec.base.name.getD "") none [] spec]
    exact map_rows (fun v n => (v.kind, v.ownData, n)) (ofSpec spec)
  · intro i r hr
    obtain ⟨l, hl, hlabel, down, up, path, hwalked, hdown, hup, hpath⟩ := exists_walked hr
    refine ⟨l, hl, hlabel, down, up, path, hwalked, hdown, hup, hpath, ?_⟩
    rw [hlabel, hpath]
    exact data_eq_findSome? spec l (List.mem_of_getElem? hl)

end ViewTree

end ChartLowering
