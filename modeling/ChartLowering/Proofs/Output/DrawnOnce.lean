import ChartLowering.Output.Render
import ChartLowering.Proofs.Output.References

/-
  What is drawn, and in which groups.

  A mark as it is written is an entry, and a group of marks an entry with a list of entries of its own.
  A walk that enters all such lists (`visit`) meets the marks of a document one by one
  (`visitAll_toJsonAll`). Its marks are those that the views give rise to in the order of their walk: a
  view of a concatenation to a group, a unit to its mark, a facet to its cell (`nestedAll_marks`). So
  every unit is drawn once, and a group encloses the units at or below its view (`drawn_once`).
-/

namespace ChartLowering

namespace Json

/-! ## Entries -/

/-- The entries that lie in an entry, if it has a list of them. -/
def entriesIn? (j : Json) : Option (List Json) :=
  match j.field? "marks" with
  | some (.arr entries) => some entries
  | _ => none

mutual

/-- An entry and all that are met in it, every entry before those in it. -/
def visit : Json → List Json
  | .obj fields => .obj fields :: visitField fields
  | j => [j]

/-- What is met in the list of entries among some fields. -/
def visitField : List (String × Json) → List Json
  | [] => []
  | (k, .arr entries) :: rest => if "marks" = k then visitAll entries else visitField rest
  | (k, _) :: rest => if "marks" = k then [] else visitField rest

def visitAll : List Json → List Json
  | [] => []
  | j :: rest => visit j ++ visitAll rest

end

theorem visitField_eq (fields : List (String × Json)) :
    visitField fields = visitAll ((Json.obj fields).entriesIn?.getD []) := by
  induction fields with
  | nil => rfl
  | cons e rest ih =>
    obtain ⟨k, v⟩ := e
    by_cases hk : "marks" = k
    · have hfield : (Json.obj ((k, v) :: rest)).field? "marks" = some v := if_pos hk
      rw [entriesIn?, hfield]
      cases v <;> exact if_pos hk
    · have hfield : (Json.obj ((k, v) :: rest)).field? "marks" = (Json.obj rest).field? "marks" :=
        if_neg hk
      have hentries : (Json.obj ((k, v) :: rest)).entriesIn? = (Json.obj rest).entriesIn? := by
        rw [entriesIn?, hfield, entriesIn?]
      rw [hentries, ← ih]
      cases v <;> exact if_neg hk

/-- A walk goes on in the list of an entry if there is one. -/
theorem visit_eq (j : Json) : j.visit = j :: visitAll (j.entriesIn?.getD []) := by
  cases j with
  | obj fields => rw [visit, visitField_eq]
  | _ => rfl

/-- The entries that a walk meets and that have none in them. -/
def drawn (entries : List Json) : List Json :=
  (visitAll entries).filter fun e => e.entriesIn?.isNone

/-- The entries that a walk meets and that have others in them, by their names and what is drawn in
them. -/
def groupsIn (entries : List Json) : List (Option Json × List Json) :=
  (visitAll entries).filterMap fun e => e.entriesIn?.map fun inside => (e.field? "name", drawn inside)

end Json

namespace Mark

/-! ## Marks as entries -/

def name : Mark → String
  | .item name .. => name
  | .group name .. => name

/-- The marks that lie in a group. -/
def inside? : Mark → Option (List Mark)
  | .item .. => none
  | .group _ _ _ marks => some marks

theorem entriesIn?_toJson (m : Mark) : m.toJson.entriesIn? = m.inside?.map toJsonAll := by
  cases m with
  | item name type data update shape =>
    cases data <;> cases shape <;> rw [toJson] <;> rfl
  | group name facet size marks =>
    cases facet <;> cases size <;> rw [toJson] <;> rfl

theorem field?_name_toJson (m : Mark) : m.toJson.field? "name" = some (.str m.name) := by
  cases m <;> rw [toJson] <;> rfl

mutual

theorem visit_toJson : ∀ m : Mark, m.toJson.visit = m.nested.map toJson
  | .item name type data update shape => by
    rw [Json.visit_eq, entriesIn?_toJson, nested]
    rfl
  | .group name facet size marks => by
    rw [Json.visit_eq, entriesIn?_toJson, nested, List.map_cons, ← visitAll_toJsonAll marks]
    rfl

/-- A walk meets the marks of all groups. -/
theorem visitAll_toJsonAll : ∀ marks : List Mark,
    Json.visitAll (toJsonAll marks) = (nestedAll marks).map toJson
  | [] => rfl
  | m :: rest => by
    rw [toJsonAll, Json.visitAll, nestedAll, List.map_append, visit_toJson m,
      visitAll_toJsonAll rest]

end

theorem isNone_inside? (m : Mark) : m.inside?.isNone = m.isItem := by
  cases m <;> rfl

theorem drawn_toJsonAll (marks : List Mark) :
    Json.drawn (toJsonAll marks) = (itemsAll marks).map toJson := by
  rw [Json.drawn, visitAll_toJsonAll, List.filter_map, itemsAll_eq_filter]
  congr 1
  refine List.filter_congr fun m _ => ?_
  rw [Function.comp_apply, entriesIn?_toJson, Option.isNone_map, isNone_inside?]

theorem groupsIn_toJsonAll (marks : List Mark) : Json.groupsIn (toJsonAll marks) =
    (nestedAll marks).filterMap fun m =>
      m.inside?.map fun inside => (some (.str m.name), (itemsAll inside).map toJson) := by
  rw [Json.groupsIn, visitAll_toJsonAll, List.filterMap_map]
  refine List.filterMap_congr fun m _ => ?_
  rw [Function.comp_apply, entriesIn?_toJson, field?_name_toJson, Option.map_map]
  congr 1
  funext inside
  rw [Function.comp_apply, drawn_toJsonAll]

end Mark

namespace ViewTree

open View

variable {r : Registry} {t : ViewTree} {above : List View} {l : Located View}

/-! ## Marks of views -/

/-- Whether a view is one of those that its parent concatenates. -/
def isConcatenated (l : Located View) : Bool := l.above.head?.any fun p => p.kind == .concat

/-- The mark of a unit. -/
def unitMark? (r : Registry) (l : Located View) : Option Mark :=
  match l.tree.label.form with
  | .unit u => some (l.tree.label.unitMark l.above u
      (l.tree.label.data.map fun _ => r.concreteName l.tree.label.mainOutput))
  | _ => none

/-- The group of a view in a concatenation. -/
def groupMarks (r : Registry) (l : Located View) : List Mark :=
  if isConcatenated l then [l.tree.label.concatGroup l.above (marks r l.above l.tree)] else []

/-- The mark of a unit, or the cell of a facet. -/
def ownMarks (r : Registry) (l : Located View) : List Mark :=
  match l.tree.label.form with
  | .unit _ => (unitMark? r l).toList
  | .facet m _ => [.group (l.tree.label.partName "cell") (l.tree.label.facetRows? r m) none
      (marksAll r (l.tree.label :: l.above) l.tree.children)]
  | _ => []

/-- A view's own mark stands before those of its children and the groups that these are put in. -/
theorem nestedAll_marks_node {v : View} {kids : List ViewTree}
    (hleaf : ∀ u, v.form = .unit u → kids = []) :
    Mark.nestedAll (marks r above (.node v kids)) = ownMarks r ⟨.node v kids, above⟩ ++
      kids.flatMap fun k =>
        groupMarks r ⟨k, v :: above⟩ ++ Mark.nestedAll (marks r (v :: above) k) := by
  have hgroups : v.kind ≠ .concat → ∀ k, groupMarks r ⟨k, v :: above⟩ = [] := fun h k =>
    if_neg (by simpa [isConcatenated] using h)
  cases hform : v.form with
  | unit u =>
    obtain rfl := hleaf u hform
    rw [marks, hform]
    simp only [ownMarks, unitMark?, Tree.label, hform, Mark.nestedAll, nested_unitMark]
    rfl
  | layer resolve =>
    have hkind : v.kind ≠ .concat := by simp [View.kind, hform, ViewForm.kind]
    rw [marks, hform]
    simp only [ownMarks, Tree.label, hform, hgroups hkind, List.nil_append, marksAll_eq_flatMap]
    exact Mark.nestedAll_flatMap _ kids
  | facet m resolve =>
    have hkind : v.kind ≠ .concat := by simp [View.kind, hform, ViewForm.kind]
    rw [marks, hform]
    simp only [ownMarks, Tree.label, hform, hgroups hkind, List.nil_append, marksAll_eq_flatMap,
      Mark.nestedAll, Mark.nested, List.append_nil, Mark.nestedAll_flatMap]
    rfl
  | concat resolve =>
    have hgroup : ∀ k, groupMarks r ⟨k, v :: above⟩ =
        [k.label.concatGroup (v :: above) (marks r (v :: above) k)] := fun k =>
      if_pos (by simp [isConcatenated, View.kind, hform, ViewForm.kind])
    rw [marks, hform]
    simp only [ownMarks, Tree.label, hform, hgroup, List.nil_append, nestedAll_groups]
    rfl

/-- The marks of a tree are those that its views give rise to, in the order of the walk. -/
theorem nestedAll_marks (r : Registry) (t : ViewTree) (above : List View)
    (hleaf : ∀ l ∈ t.walk above, ∀ u, l.tree.label.form = .unit u → l.tree.children = []) :
    groupMarks r ⟨t, above⟩ ++ Mark.nestedAll (marks r above t) =
      (t.walk above).flatMap fun l => groupMarks r l ++ ownMarks r l := by
  induction t using Tree.induction generalizing above with
  | step v kids ih =>
    have hbelow : ∀ k ∈ kids, ∀ l ∈ k.walk (v :: above), ∀ u,
        l.tree.label.form = .unit u → l.tree.children = [] :=
      fun k hk l hl => hleaf l (Tree.mem_walk.2 (Or.inr ⟨k, hk, hl⟩))
    have hroot : ∀ u, v.form = .unit u → kids = [] :=
      hleaf _ (Tree.self_mem_walk above (.node v kids))
    rw [nestedAll_marks_node hroot, Tree.walk_node, List.flatMap_cons, List.append_assoc,
      List.flatMap_assoc, List.flatMap_congr fun k hk => ih k hk (v :: above) (hbelow k hk)]

/-! ## Units and groups -/

theorem isItem_unitMark (v : View) (above : List View) (u : UnitSpec) (data : Option String) :
    (v.unitMark above u data).isItem = true := by
  obtain ⟨type, update, shape, h⟩ := unitMark_eq_item v above u data
  rw [h, Mark.isItem]

theorem name_unitMark (v : View) (above : List View) (u : UnitSpec) (data : Option String) :
    (v.unitMark above u data).name = v.partName "marks" := by
  obtain ⟨type, update, shape, h⟩ := unitMark_eq_item v above u data
  rw [h, Mark.name]

theorem filter_isItem_groupMarks (r : Registry) (l : Located View) :
    (groupMarks r l).filter Mark.isItem = [] := by
  unfold groupMarks
  split <;> rfl

theorem filter_isItem_ownMarks (r : Registry) (l : Located View) :
    (ownMarks r l).filter Mark.isItem = (unitMark? r l).toList := by
  unfold ownMarks unitMark?
  cases l.tree.label.form with
  | unit u => exact List.filter_cons_of_pos (isItem_unitMark ..)
  | facet m resolve => rfl
  | layer resolve => rfl
  | concat resolve => rfl

/-- What is drawn is the marks of the units, in the order of the walk. -/
theorem itemsAll_marks (hleaf : ∀ l ∈ t.walk above, ∀ u, l.tree.label.form = .unit u →
      l.tree.children = []) :
    Mark.itemsAll (marks r above t) = (t.walk above).filterMap (unitMark? r) := by
  have hitems := congrArg (List.filter Mark.isItem) (nestedAll_marks r t above hleaf)
  rw [List.filter_append, filter_isItem_groupMarks, List.nil_append, ← Mark.itemsAll_eq_filter,
    List.filter_flatMap] at hitems
  rw [hitems, List.filterMap_eq_flatMap_toList]
  refine List.flatMap_congr fun l _ => ?_
  rw [List.filter_append, filter_isItem_groupMarks, List.nil_append, filter_isItem_ownMarks]

/-- The names of the groups that a view gives rise to: that of its group in a concatenation, and that
of its cell if it is a facet. -/
def groupNames (l : Located View) : List String :=
  (if isConcatenated l then [l.tree.label.partName "group"] else []) ++
    if l.tree.label.kind = .facet then [l.tree.label.partName "cell"] else []

/-- A group is named for its view, and encloses what is drawn for it. -/
theorem groups_of_view (r : Registry) (l : Located View) :
    (groupMarks r l ++ ownMarks r l).filterMap (fun m =>
        m.inside?.map fun inside => (m.name, Mark.itemsAll inside)) =
      (groupNames l).map fun name => (name, Mark.itemsAll (marks r l.above l.tree)) := by
  have hgroup : (groupMarks r l).filterMap (fun m =>
      m.inside?.map fun inside => (m.name, Mark.itemsAll inside)) =
        (if isConcatenated l then [l.tree.label.partName "group"] else []).map
          fun name => (name, Mark.itemsAll (marks r l.above l.tree)) := by
    unfold groupMarks
    split <;> rfl
  have hown : (ownMarks r l).filterMap (fun m =>
      m.inside?.map fun inside => (m.name, Mark.itemsAll inside)) =
        (if l.tree.label.kind = .facet then [l.tree.label.partName "cell"] else []).map
          fun name => (name, Mark.itemsAll (marks r l.above l.tree)) := by
    obtain ⟨⟨v, kids⟩, above⟩ := l
    cases hform : v.form with
    | unit u =>
      have hnone : (v.unitMark above u (v.data.map fun _ => r.concreteName v.mainOutput)).inside? =
          none := Option.isNone_iff_eq_none.1 ((Mark.isNone_inside? _).trans (isItem_unitMark ..))
      simp [ownMarks, unitMark?, Tree.label, View.kind, hform, ViewForm.kind, hnone]
    | facet m resolve =>
      rw [marks, hform]
      simp [ownMarks, Tree.label, Tree.children, View.kind, hform, ViewForm.kind, Mark.inside?,
        Mark.name, Mark.itemsAll, Mark.items]
    | layer resolve => simp [ownMarks, Tree.label, View.kind, hform, ViewForm.kind]
    | concat resolve => simp [ownMarks, Tree.label, View.kind, hform, ViewForm.kind]
  rw [List.filterMap_append, hgroup, hown, groupNames, List.map_append]

/-- The entry of a unit's mark. -/
def drawnUnit? (r : Registry) (l : Located View) : Option Json := (unitMark? r l).map Mark.toJson

theorem map_name_drawnUnit? (r : Registry) (l : Located View) :
    (drawnUnit? r l).map (fun e => e.field? "name") =
      if l.tree.label.kind == .unit then some (some (.str (l.tree.label.partName "marks")))
      else none := by
  unfold drawnUnit? unitMark? View.kind
  rw [Option.map_map]
  cases l.tree.label.form with
  | unit u =>
    show some ((Mark.toJson _).field? "name") = _
    rw [Mark.field?_name_toJson, name_unitMark]
    rfl
  | layer resolve => rfl
  | facet m resolve => rfl
  | concat resolve => rfl

end ViewTree

theorem Document.entriesIn?_toJson (d : Document) :
    d.toJson.entriesIn? = some (Mark.toJsonAll d.marks) := by
  have hmarks : d.toJson.field? "marks" = some (.arr (Mark.toJsonAll d.marks)) := by
    unfold Document.toJson unlessEmpty
    repeat' split
    all_goals rfl
  rw [Json.entriesIn?, hmarks]

namespace TopLevelSpec

open ViewTree View

/-- A walk through the marks of a document meets one entry without entries of its own for every unit,
in the order of the walk of the tree. Besides it meets a group for every view of a concatenation, and a
cell for every facet, and each of them encloses the units at or below its view. -/
theorem drawn_once {settings : Settings} {t : TopLevelSpec} {d : Document}
    (hd : t.compile settings = .ok d) :
    ∃ r entries, t.registered settings = .ok r ∧ d.toJson.entriesIn? = some entries ∧
      Json.drawn entries = ((t.resolved settings).walk []).filterMap (drawnUnit? r.link) ∧
      (Json.drawn entries).map (fun e => e.field? "name") =
        (((t.resolved settings).walk []).filter fun l => l.tree.label.kind == .unit).map
          (fun l => some (.str (l.tree.label.partName "marks"))) ∧
      Json.groupsIn entries = ((t.resolved settings).walk []).flatMap fun l =>
        (groupNames l).map fun name =>
          (some (.str name), (l.tree.walk l.above).filterMap (drawnUnit? r.link)) := by
  have h := isResolved_resolved settings t
  obtain ⟨r, hr, hcompiled⟩ := compiled_of_compile hd
  have hleaf : ∀ l ∈ (t.resolved settings).walk [], ∀ u, l.tree.label.form = .unit u →
      l.tree.children = [] := fun l hl u hu => ((h.settled l hl).unit u hu).1
  have hdrawn : ∀ l ∈ (t.resolved settings).walk [],
      (Mark.itemsAll (marks r.link l.above l.tree)).map Mark.toJson =
        (l.tree.walk l.above).filterMap (drawnUnit? r.link) := by
    intro l hl
    rw [itemsAll_marks fun m hm => hleaf m (Tree.mem_walk_of_mem_walk hl hm), List.map_filterMap]
    rfl
  have hunits : Json.drawn (Mark.toJsonAll d.marks) =
      ((t.resolved settings).walk []).filterMap (drawnUnit? r.link) := by
    rw [hcompiled.marks, Mark.drawn_toJsonAll]
    exact hdrawn _ (Tree.self_mem_walk [] _)
  have hnested : Mark.nestedAll d.marks =
      ((t.resolved settings).walk []).flatMap fun l => groupMarks r.link l ++ ownMarks r.link l := by
    rw [hcompiled.marks, ← nestedAll_marks r.link _ [] hleaf]
    rfl
  refine ⟨r, _, hr, d.entriesIn?_toJson, hunits, ?_, ?_⟩
  · rw [hunits, List.map_filterMap, List.filterMap_congr fun l _ => map_name_drawnUnit? r.link l,
      ← List.filterMap_eq_map, List.filterMap_filter]
    rfl
  · rw [Mark.groupsIn_toJsonAll, hnested, List.filterMap_flatMap]
    refine List.flatMap_congr fun l hl => ?_
    have hgroups := congrArg (List.map fun g : String × List Mark =>
      (some (Json.str g.1), g.2.map Mark.toJson)) (groups_of_view r.link l)
    rw [List.map_filterMap, List.map_map] at hgroups
    simp only [Option.map_map, Function.comp_def, hdrawn l hl] at hgroups
    exact hgroups

/-- Two maps over each other, repeated for every origin, and one beside them. -/
def mapsInGroups : TopLevelSpec :=
  let bare : ViewBase := ⟨none, none, none, none⟩
  let origin : ChannelDef := ⟨.field "origin", some .nominal, none, .unset, .unset, .empty⟩
  ⟨.concat bare [.facet ⟨none, some ⟨.name "land", none⟩, none, none⟩ ⟨none, some origin, none⟩
      (.layer bare [.unit bare mapUnit, .unit bare mapUnit] .silent) .silent,
    .unit bare mapUnit] .horizontal .silent, .empty, .plain⟩

/-- Each of the three maps is drawn once, and the cell of the facet lies in the first of two groups. -/
theorem drawn_once_mapsInGroups : ∃ d entries, mapsInGroups.compile .standard = .ok d ∧
    d.toJson.entriesIn? = some entries ∧
    (Json.drawn entries).map (fun e => e.field? "name") =
      ["concat_0_child_layer_0_marks", "concat_0_child_layer_1_marks", "concat_1_marks"].map
        (fun name => some (.str name)) ∧
    (Json.groupsIn entries).map Prod.fst =
      ["concat_0_group", "concat_0_cell", "concat_1_group"].map fun name => some (.str name) := by
  have hok : (mapsInGroups.compile .standard).toOption.isSome = true := by decide +kernel
  have hunits : (((mapsInGroups.resolved .standard).walk []).filter fun l =>
      l.tree.label.kind == .unit).map (fun l => l.tree.label.partName "marks") =
        ["concat_0_child_layer_0_marks", "concat_0_child_layer_1_marks", "concat_1_marks"] := by
    decide +kernel
  have hgroups : ((mapsInGroups.resolved .standard).walk []).flatMap groupNames =
      ["concat_0_group", "concat_0_cell", "concat_1_group"] := by
    decide +kernel
  cases hd : mapsInGroups.compile .standard with
  | error cause => rw [hd] at hok; cases hok
  | ok d =>
    obtain ⟨r, entries, -, hentries, -, hdrawn, hin⟩ := drawn_once hd
    refine ⟨d, entries, rfl, hentries, ?_, ?_⟩
    · rw [hdrawn, ← hunits, List.map_map]
      rfl
    · rw [hin, ← hgroups, List.map_flatMap, List.map_flatMap]
      simp only [List.map_map, Function.comp_def]

end TopLevelSpec

end ChartLowering
