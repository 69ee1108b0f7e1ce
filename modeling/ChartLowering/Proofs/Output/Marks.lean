import ChartLowering.Output.Document
import ChartLowering.Proofs.Tree.Address

/-
  What the marks of a document refer to.

  Every mark of a tree stands for one of its views, however it is grouped
  (`standsFor_of_mem_marks`), and those that draw something are those of units (`mem_items_marks`).
  A mark property goes through a scale only if that is the scale of a channel as seen from the unit,
  the last channel that sets a property decides on it, and shapes are projected by the projection as
  seen from the unit.
-/

namespace ChartLowering

namespace Mark

mutual

/-- The marks that draw something, out of all groups. -/
def items : Mark → List Mark
  | .item name type data update shape => [.item name type data update shape]
  | .group _ _ _ marks => itemsAll marks

def itemsAll : List Mark → List Mark
  | [] => []
  | m :: rest => items m ++ itemsAll rest

end

/-- The mark properties that are set when a mark is drawn. -/
def entries : Mark → List Entry
  | .item _ _ _ update _ => update.values
  | .group .. => []

/-- The projection of the shapes that a mark draws. -/
def shape? : Mark → Option ShapeTransform
  | .item _ _ _ _ shape => shape
  | .group .. => none

mutual

/-- A mark and all marks in it. -/
def nested : Mark → List Mark
  | .item name type data update shape => [.item name type data update shape]
  | .group name facet size marks => .group name facet size marks :: nestedAll marks

def nestedAll : List Mark → List Mark
  | [] => []
  | m :: rest => nested m ++ nestedAll rest

end

/-- Whether a mark draws something itself. -/
def isItem : Mark → Bool
  | .item .. => true
  | .group .. => false

theorem nestedAll_eq_flatMap (marks : List Mark) : nestedAll marks = marks.flatMap nested := by
  induction marks with
  | nil => rfl
  | cons m rest ih => rw [nestedAll, ih, List.flatMap_cons]

theorem nestedAll_flatMap {α : Type} (f : α → List Mark) (l : List α) :
    nestedAll (l.flatMap f) = l.flatMap fun a => nestedAll (f a) := by
  simp only [nestedAll_eq_flatMap, List.flatMap_assoc]

mutual

theorem items_eq_filter : ∀ m : Mark, m.items = m.nested.filter isItem
  | .item .. => by rw [items, nested]; rfl
  | .group _ _ _ marks => by
    rw [items, nested, List.filter_cons_of_neg (by simp [isItem]), itemsAll_eq_filter marks]

/-- The marks that draw something are among all marks those that are no groups. -/
theorem itemsAll_eq_filter : ∀ marks : List Mark, itemsAll marks = (nestedAll marks).filter isItem
  | [] => rfl
  | m :: rest => by
    rw [itemsAll, nestedAll, List.filter_append, items_eq_filter m, itemsAll_eq_filter rest]

end

end Mark

/-- The names of the scales that mark properties go through. -/
def Document.markScales (d : Document) : List String :=
  (Mark.itemsAll d.marks).flatMap fun m => m.entries.filterMap Entry.scale

/-- The projections of drawn shapes. -/
def Document.shapes (d : Document) : List ShapeTransform :=
  (Mark.itemsAll d.marks).filterMap Mark.shape?

namespace ViewTree

variable {r : Registry} {above : List View}

/-- Whether a mark stands for a view: it draws the view's unit, or is its group in a concatenation,
or repeats its child as a facet. -/
inductive StandsFor (r : Registry) (l : Located View) (m : Mark) : Prop where
  | unit {u : UnitSpec} {data : Option String} (hform : l.tree.label.form = .unit u)
      (hm : m = l.tree.label.unitMark l.above u data) : StandsFor r l m
  | group (hm : m = l.tree.label.concatGroup l.above (marks r l.above l.tree)) : StandsFor r l m
  | cell {facet : Option FacetRows} {kids : List Mark}
      (hm : m = .group (l.tree.label.partName "cell") facet none kids) : StandsFor r l m

theorem marksAll_eq_flatMap (r : Registry) (above : List View) (ts : List ViewTree) :
    marksAll r above ts = ts.flatMap (marks r above) := by
  induction ts with
  | nil => rfl
  | cons t rest ih => rw [marksAll, ih, List.flatMap_cons]

theorem groups_eq_map (r : Registry) (above : List View) (ts : List ViewTree) :
    groups r above ts = ts.map fun t => t.label.concatGroup above (marks r above t) := by
  induction ts with
  | nil => rfl
  | cons t rest ih => rw [groups, ih, List.map_cons]

theorem nestedAll_groups (ts : List ViewTree) : Mark.nestedAll (groups r above ts) =
    ts.flatMap fun t => t.label.concatGroup above (marks r above t) ::
      Mark.nestedAll (marks r above t) := by
  rw [groups_eq_map, Mark.nestedAll_eq_flatMap, List.flatMap_map]
  refine List.flatMap_congr fun t _ => ?_
  rw [View.concatGroup, Mark.nested]

theorem mem_marksAll {m : Mark} {ts : List ViewTree} :
    m ∈ Mark.nestedAll (marksAll r above ts) ↔ ∃ t ∈ ts, m ∈ Mark.nestedAll (marks r above t) := by
  rw [marksAll_eq_flatMap, Mark.nestedAll_flatMap, List.mem_flatMap]

theorem mem_groups {m : Mark} {ts : List ViewTree} :
    m ∈ Mark.nestedAll (groups r above ts) ↔ ∃ t ∈ ts,
      m = t.label.concatGroup above (marks r above t) ∨ m ∈ Mark.nestedAll (marks r above t) := by
  rw [nestedAll_groups, List.mem_flatMap]
  simp only [List.mem_cons]

/-- The mark of a unit is no group, whatever it draws. -/
theorem unitMark_eq_item (v : View) (above : List View) (u : UnitSpec) (data : Option String) :
    ∃ type update shape,
      v.unitMark above u data = .item (v.partName "marks") type data update shape := by
  unfold View.unitMark
  simp only
  split
  · exact ⟨_, _, _, rfl⟩
  · split <;> exact ⟨_, _, _, rfl⟩

theorem nested_unitMark (v : View) (above : List View) (u : UnitSpec) (data : Option String) :
    (v.unitMark above u data).nested = [v.unitMark above u data] := by
  obtain ⟨type, update, shape, h⟩ := unitMark_eq_item v above u data
  rw [h, Mark.nested]

/-- Every mark stands for some view. -/
theorem standsFor_of_mem_marks {m : Mark} {t : ViewTree}
    (hm : m ∈ Mark.nestedAll (marks r above t)) : ∃ l ∈ t.walk above, StandsFor r l m := by
  induction t using Tree.induction generalizing above with
  | step v kids ih =>
    have hself : ⟨.node v kids, above⟩ ∈ Tree.walk above (.node v kids) := Tree.self_mem_walk above _
    have below {t : ViewTree} (ht : t ∈ kids) (hmt : m ∈ Mark.nestedAll (marks r (v :: above) t)) :
        ∃ l ∈ Tree.walk above (.node v kids), StandsFor r l m := by
      obtain ⟨l, hl, hstands⟩ := ih t ht hmt
      exact ⟨l, Tree.mem_walk.2 (Or.inr ⟨t, ht, hl⟩), hstands⟩
    unfold marks at hm
    split at hm
    · rename_i u hu
      rw [Mark.nestedAll, Mark.nestedAll, List.append_nil, nested_unitMark] at hm
      exact ⟨_, hself, .unit hu (List.mem_singleton.1 hm)⟩
    · obtain ⟨t, ht, hmt⟩ := mem_marksAll.1 hm
      exact below ht hmt
    · obtain ⟨t, ht, rfl | hmt⟩ := mem_groups.1 hm
      · exact ⟨_, Tree.child_mem_walk hself ht, .group rfl⟩
      · exact below ht hmt
    · rw [Mark.nestedAll, Mark.nestedAll, List.append_nil, Mark.nested, List.mem_cons] at hm
      rcases hm with rfl | hm
      · exact ⟨_, hself, .cell rfl⟩
      · obtain ⟨t, ht, hmt⟩ := mem_marksAll.1 hm
        exact below ht hmt

/-- Every mark that draws something is that of a unit. -/
theorem mem_items_marks {m : Mark} {t : ViewTree} (hm : m ∈ Mark.itemsAll (marks r above t)) :
    ∃ l ∈ t.walk above, ∃ u data, l.tree.label.form = .unit u ∧
      m = l.tree.label.unitMark l.above u data := by
  rw [Mark.itemsAll_eq_filter, List.mem_filter] at hm
  obtain ⟨hnested, hitem⟩ := hm
  obtain ⟨l, hl, hstands⟩ := standsFor_of_mem_marks hnested
  cases hstands with
  | unit hform hm => exact ⟨l, hl, _, _, hform, hm⟩
  | group hm => rw [hm] at hitem; cases hitem
  | cell hm => rw [hm] at hitem; cases hitem

/-- Every unit has its mark, however it is grouped. -/
theorem unitMark_mem_marks {t : ViewTree}
    (hleaf : ∀ l ∈ t.walk above, ∀ u, l.tree.label.form = .unit u → l.tree.children = [])
    {l : Located View} (hl : l ∈ t.walk above) {u : UnitSpec} (hform : l.tree.label.form = .unit u) :
    l.tree.label.unitMark l.above u
        (l.tree.label.data.map fun _ => r.concreteName l.tree.label.mainOutput) ∈
      Mark.nestedAll (marks r above t) := by
  induction t using Tree.induction generalizing above with
  | step v kids ih =>
    rcases Tree.mem_walk.1 hl with rfl | ⟨t, ht, hl⟩
    · have hform : v.form = .unit u := hform
      rw [marks, hform]
      simp only [Tree.label]
      rw [Mark.nestedAll, nested_unitMark]
      exact List.mem_append_left _ List.mem_cons_self
    · have hmem := ih t ht (fun m hm => hleaf m (Tree.mem_walk.2 (Or.inr ⟨t, ht, hm⟩))) hl
      rw [marks]
      cases hv : v.form with
      | unit w =>
        obtain rfl : kids = [] := hleaf _ (Tree.self_mem_walk above _) w hv
        exact absurd ht List.not_mem_nil
      | layer resolve => exact mem_marksAll.2 ⟨t, ht, hmem⟩
      | concat resolve => exact mem_groups.2 ⟨t, ht, Or.inr hmem⟩
      | facet m resolve =>
        simp only
        rw [Mark.nestedAll, Mark.nested]
        exact List.mem_append_left _ (List.mem_cons_of_mem _ (mem_marksAll.2 ⟨t, ht, hmem⟩))

end ViewTree

namespace View

variable {v : View} {above : List View} {u : UnitSpec}

/-! ## Scales of mark properties -/

/-- Whether mark properties go only through scales of the view's channels. -/
def ThroughScales (v : View) (above : List View) (update : OrderedMap String Entry) : Prop :=
  ∀ e ∈ update.values, ∀ n, e.scale = some n → ∃ c, v.scaleName? above c = some n

theorem ThroughScales.insert {update : OrderedMap String Entry} (h : ThroughScales v above update)
    (property : String) {entry : Entry}
    (hentry : ∀ n, entry.scale = some n → ∃ c, v.scaleName? above c = some n) :
    ThroughScales v above (update.insert property entry) := by
  intro e he
  rcases OrderedMap.mem_values_insert he with rfl | he
  · exact hentry
  · exact h e he

theorem scale_of_entry? {scale : Option String} {d : ChannelDef} {entry : Entry}
    (h : entry? scale d = some entry) {n : String} (hn : entry.scale = some n) : scale = some n := by
  unfold entry? at h
  split at h
  · cases h
  · rw [← Option.some.inj h] at hn
    exact hn
  · rw [← Option.some.inj h] at hn
    exact hn
  · split at h
    · rw [← Option.some.inj h] at hn
      exact hn
    · rw [← Option.some.inj h] at hn
      cases hn

theorem throughScales_update (v : View) (above : List View) (u : UnitSpec) (skip : List Channel) :
    ThroughScales v above (v.update above u skip) := by
  unfold update
  refine List.foldlRecOn _ _ (fun e he => absurd he List.not_mem_nil) ?_
  rintro acc hacc ⟨c, e⟩ -
  simp only
  split
  · rename_i d property hproperty
    split
    · exact hacc
    · split
      · rename_i entry hentry
        exact hacc.insert property fun n hn => ⟨c, scale_of_entry? hentry hn⟩
      · exact hacc
  · exact hacc

theorem throughScales_projectedPositions {update : OrderedMap String Entry}
    (h : ThroughScales v above update) : ThroughScales v above (v.projectedPositions u update) := by
  unfold projectedPositions
  refine List.foldlRecOn _ _ h ?_
  rintro acc hacc ⟨suffix, pair⟩ -
  exact (hacc.insert _ (by simp)).insert _ (by simp)

theorem throughScales_symbolUpdate (v : View) (above : List View) (u : UnitSpec) :
    ThroughScales v above (v.symbolUpdate above u) := by
  have hpositioned : ThroughScales v above
      (if (v.projectionName? above).isSome then v.projectedPositions u (v.update above u [])
        else v.update above u []) := by
    split
    · exact throughScales_projectedPositions (throughScales_update v above u [])
    · exact throughScales_update v above u []
  have hshaped (update : OrderedMap String Entry) (h : ThroughScales v above update) :
      ThroughScales v above
        (if (u.mark.type == "circle" || u.mark.type == "square") && !update.contains "shape" then
          update.insert "shape" ⟨.value (.str u.mark.type), none⟩
        else update) := by
    split
    · exact h.insert _ (by simp)
    · exact h
  exact hshaped _ hpositioned

/-- The properties of a unit's mark go only through scales of the unit's channels. -/
theorem scale_of_unitMark {data : Option String} {e : Entry}
    (he : e ∈ (v.unitMark above u data).entries) {n : String} (hn : e.scale = some n) :
    ∃ c, v.scaleName? above c = some n := by
  unfold unitMark at he
  simp only at he
  split at he
  · exact throughScales_update v above u [.shape] e he n hn
  · split at he
    · exact throughScales_symbolUpdate v above u e he n hn
    · exact throughScales_update v above u [] e he n hn

/-- Only geographic shapes are projected, by the unit's projection and from its shape field. -/
theorem shape_of_unitMark {data : Option String} {st : ShapeTransform}
    (h : (v.unitMark above u data).shape? = some st) :
    u.mark.type = "geoshape" ∧ st = ⟨v.projectionName? above, u.shapeField?.map rowField⟩ := by
  unfold unitMark at h
  simp only at h
  split at h
  · rename_i htype
    rw [Mark.shape?] at h
    exact ⟨by simpa using htype, (Option.some.inj h).symm⟩
  · split at h <;> rw [Mark.shape?] at h <;> cases h

/-! ## What one channel sets -/

/-- A field or a datum is encoded, and goes through the scale of its channel. -/
theorem exists_entry?_of_isFieldOrDatum {d : ChannelDef} (h : d.isFieldOrDatum = true)
    (scale : Option String) : ∃ entry, entry? scale d = some entry ∧ entry.scale = scale := by
  unfold ChannelDef.isFieldOrDatum ChannelDef.hasField ChannelDef.hasDatum ChannelDef.field? at h
  unfold entry?
  split
  · rename_i hcontent
    rw [hcontent] at h
    cases h
  · exact ⟨_, rfl, rfl⟩
  · exact ⟨_, rfl, rfl⟩
  · rename_i hcontent
    rw [hcontent] at h
    cases h

/-- Whether a channel is the last of a unit's that sets a mark property. -/
def SetsLast (u : UnitSpec) (c : Channel) (d : ChannelDef) (property : String) : Prop :=
  markProperty? u.mark.type c = some property ∧
    ∃ before after, u.encoding.entries = before ++ (c, .one d) :: after ∧
      ∀ e ∈ after, markProperty? u.mark.type e.1 ≠ some property

/-- The last channel that sets a mark property decides on it. -/
theorem get?_update_of_setsLast {skip : List Channel} {c : Channel} {d : ChannelDef}
    {property : String} (h : SetsLast u c d property) (hskip : c ∉ skip) {entry : Entry}
    (hentry : entry? (v.scaleName? above c) d = some entry) :
    (v.update above u skip).get? property = some entry := by
  obtain ⟨hproperty, before, after, hentries, hafter⟩ := h
  unfold update
  rw [hentries, List.foldl_append, List.foldl_cons]
  simp only [hproperty, if_neg hskip, hentry]
  refine List.foldlRecOn _ _ (motive := fun (update : OrderedMap String Entry) =>
    update.get? property = some entry) (OrderedMap.get?_insert_self _ _ _) ?_
  rintro acc hacc ⟨b, e⟩ he
  simp only
  split
  · rename_i d' other hother
    split
    · exact hacc
    · split
      · rw [OrderedMap.get?_insert_of_ne, hacc]
        rintro rfl
        exact hafter (b, _) he hother
      · exact hacc
  · exact hacc

end View

namespace ViewTree

variable {t : ViewTree} {r : Registry} {d : Document}

/-- A scale that a mark property goes through is that of a unit's channel, as seen from the unit. -/
theorem mem_markScales (hd : d.marks = t.marks r []) {n : String} (hn : n ∈ d.markScales) :
    ∃ l ∈ t.walk [], ∃ c, l.tree.label.scaleName? l.above c = some n := by
  unfold Document.markScales at hn
  rw [hd, List.mem_flatMap] at hn
  obtain ⟨m, hm, hn⟩ := hn
  obtain ⟨e, he, hscale⟩ := List.mem_filterMap.1 hn
  obtain ⟨l, hl, u, data, -, rfl⟩ := mem_items_marks hm
  exact ⟨l, hl, View.scale_of_unitMark he hscale⟩

/-- A shape is drawn by a unit of geographic shapes, through its projection as seen from it. -/
theorem mem_shapes (hd : d.marks = t.marks r []) {st : ShapeTransform} (hst : st ∈ d.shapes) :
    ∃ l ∈ t.walk [], ∃ u, l.tree.label.form = .unit u ∧ u.mark.type = "geoshape" ∧
      st = ⟨l.tree.label.projectionName? l.above, u.shapeField?.map View.rowField⟩ := by
  unfold Document.shapes at hst
  rw [hd] at hst
  obtain ⟨m, hm, hshape⟩ := List.mem_filterMap.1 hst
  obtain ⟨l, hl, u, data, hform, rfl⟩ := mem_items_marks hm
  exact ⟨l, hl, u, hform, View.shape_of_unitMark hshape⟩

end ViewTree

end ChartLowering
