import ChartLowering.Proofs.Names.Lookup

/-
  What the names of size signals are looked up to.

  Only a sized view has names of signals: those of its own width and height, which stand for the
  layer's around it if there is one and for themselves otherwise (`sizeScoped_resolved`). A look-up
  that comes to the name of a sized view's size therefore ends in the name of a live size signal, and
  one that does not leaves the name alone (`sizeOrSame_of_locate?`). So the size of every unit and every
  layer is a live signal (`hasSize_sizeSignal`), while facets and concatenations have none, and where
  no view has a name of its own theirs is not met with by chance (`not_hasSize_sizeSignal`).
-/

namespace ChartLowering

namespace View

theorem isSized_of_unit {v : View} {u : UnitSpec} (h : v.form = .unit u) : v.isSized = true := by
  unfold isSized kind
  rw [h]
  rfl

theorem isSized_of_layer {v : View} (h : v.kind = .layer) : v.isSized = true := by
  unfold isSized
  rw [h]
  rfl

/-- What a sized view calls its size outside: the size of the layer around it, or its own. -/
def outerSize (parent : Option View) (v : View) (d : Dimension) : String :=
  match parent with
  | some p => if p.kind = .layer then p.partName d.name else v.partName d.name
  | none => v.partName d.name

/-- The names of a view's size signals with the names that are assigned to them. -/
def sizeNames (parent : Option View) (v : View) : NameMap :=
  if v.isSized then ⟨Dimension.all.map fun d => (v.partName d.name, v.outerSize parent d)⟩
  else .empty

theorem isPart_dimension (d : Dimension) : Text.IsPart d.name := by
  cases d <;> decide +kernel

/-- The size of a view has no name of a part below it. -/
theorem isOwnPart_dimension (d : Dimension) : ViewTree.IsOwnPart d.name := by
  cases d <;> decide +kernel

theorem partName_dimension_injective {v : View} {d e : Dimension}
    (h : v.partName d.name = v.partName e.name) : d = e := by
  have hname := Text.qualified_injective (isPart_dimension d) (isPart_dimension e) h
  cases d <;> cases e <;> first | rfl | exact absurd hname (by decide)

theorem width_ne_height (v : View) :
    v.partName Dimension.width.name ≠ v.partName Dimension.height.name := fun h =>
  absurd (partName_dimension_injective h) (by decide)

theorem assigned_sizeNames {v : View} (h : v.isSized = true) (parent : Option View) (d : Dimension) :
    (v.sizeNames parent).assigned (v.partName d.name) = v.outerSize parent d := by
  have hne := v.width_ne_height
  unfold sizeNames NameMap.assigned
  rw [if_pos h]
  cases d with
  | width => simp [OrderedMap.get?, OrderedMap.find?, Dimension.all]
  | height => simp [OrderedMap.get?, OrderedMap.find?, Dimension.all, hne.symm]

/-- A name that is not that of the view's own size is left alone. -/
theorem assigned_sizeNames_of_ne {v : View} {n : String}
    (h : v.isSized = true → ∀ d : Dimension, v.partName d.name ≠ n) (parent : Option View) :
    (v.sizeNames parent).assigned n = n := by
  unfold sizeNames NameMap.assigned
  split
  · rename_i hsized
    have hwidth := (h hsized .width).symm
    have hheight := (h hsized .height).symm
    simp [OrderedMap.get?, OrderedMap.find?, Dimension.all, hwidth, hheight]
  · rfl

end View

namespace ViewTree

open View

/-! ## Where the names of sizes come from -/

theorem seed_seed {a b : String} (h : a ≠ b) :
    (NameMap.seed (NameMap.seed .empty a) b) = ⟨[(a, a), (b, b)]⟩ := by
  have hmap : NameMap.seed .empty a = ⟨[(a, a)]⟩ := rfl
  rw [hmap]
  simp [NameMap.seed, OrderedMap.insertIfNew, OrderedMap.contains, OrderedMap.get?, OrderedMap.find?,
    OrderedMap.insert, OrderedMap.put, h.symm]

theorem rename_rename {a b : String} (h : a ≠ b) (x y x' y' : String) :
    NameMap.rename (NameMap.rename ⟨[(a, x), (b, y)]⟩ a x') b y' = ⟨[(a, x'), (b, y')]⟩ := by
  have hmap : NameMap.rename ⟨[(a, x), (b, y)]⟩ a x' = ⟨[(a, x'), (b, y)]⟩ := by
    simp [NameMap.rename, OrderedMap.replace, OrderedMap.contains, OrderedMap.get?,
      OrderedMap.find?, OrderedMap.insert, OrderedMap.put]
  rw [hmap]
  simp [NameMap.rename, OrderedMap.replace, OrderedMap.contains, OrderedMap.get?, OrderedMap.find?,
    OrderedMap.insert, OrderedMap.put, h.symm]

theorem signals_seedSizes {v : View} (h : v.scope = .empty) :
    (Dimension.all.foldl (fun v d => v.seed .signal (v.partName d.name)) v).scope.signals =
      ⟨Dimension.all.map fun d => (v.partName d.name, v.partName d.name)⟩ := by
  have hseed : (Dimension.all.foldl (fun v d => v.seed .signal (v.partName d.name)) v).scope.signals =
      NameMap.seed (NameMap.seed v.scope.signals (v.partName Dimension.width.name))
        (v.partName Dimension.height.name) := rfl
  have hempty : v.scope.signals = .empty := by rw [h]; rfl
  rw [hseed, hempty]
  exact seed_seed v.width_ne_height

/-- A view as it is built has its sizes under their own names. -/
theorem signals_viewOf (name : String) (form : ViewForm) (base : ViewBase)
    (inherited : Option DataSpec) :
    (viewOf name form base inherited).scope.signals =
      (viewOf name form base inherited).sizeNames none := by
  have hsame : ∀ v : View,
      (Dimension.all.foldl (fun v d => v.seed .signal (v.partName d.name)) v).sizeNames none =
        v.sizeNames none := fun v => rfl
  unfold viewOf
  simp only
  split
  · rename_i hsized
    rw [hsame, signals_seedSizes rfl, sizeNames, if_pos hsized]
    rfl
  · rename_i hsized
    rw [sizeNames, if_neg hsized]
    rfl

/-- A layer's child has its sizes under the names of the layer's. -/
theorem signals_layoutChild (p : View) {v : View} (h : v.scope.signals = v.sizeNames none) :
    (layoutChild p v).scope.signals = (layoutChild p v).sizeNames (some p) := by
  have hsame : (layoutChild p v).sizeNames (some p) = v.sizeNames (some p) := by
    obtain ⟨signals, heq⟩ := layoutChild_eq p v
    rw [heq]
    rfl
  rw [hsame]
  unfold sizeNames at h
  unfold layoutChild shareSize sizeNames outerSize
  by_cases hsized : v.isSized = true
  · rw [if_pos hsized] at h
    by_cases hlayer : p.kind = .layer
    · simp only [if_pos hsized, if_pos hlayer]
      show NameMap.rename (NameMap.rename v.scope.signals _ _) _ _ = _
      rw [h]
      exact rename_rename v.width_ne_height _ _ _ _
    · simp only [if_pos hsized, if_neg hlayer]
      exact h
  · rw [if_neg hsized] at h
    simp only [if_neg hsized]
    split <;> exact h

/-- What a view calls its size outside depends on the name and the kind of the view around it. -/
theorem sizeNames_eq_of_blank_eq {v w : View} (h : v.blank = w.blank) (u : View) :
    u.sizeNames (some v) = u.sizeNames (some w) := by
  have hkind : v.kind = w.kind := by
    unfold kind
    rw [form_eq_of_blank_eq h]
  have houter : u.outerSize (some v) = u.outerSize (some w) := by
    funext d
    unfold outerSize
    simp only [hkind, partName_eq_of_blank_eq h]
  unfold sizeNames
  rw [houter]

theorem signals_layoutBelow {t : ViewTree}
    (h : t.Everywhere fun u => u.label.scope.signals = u.label.sizeNames none)
    (parent : Option View) {above : List View}
    (hparent : ∀ u, sizeNames above.head? u = sizeNames parent u) :
    ∀ l ∈ (layoutBelow parent t).walk above,
      l.tree.label.scope.signals = l.tree.label.sizeNames l.above.head? := by
  induction t using Tree.induction generalizing parent above with
  | step v kids ih =>
    obtain ⟨signals, hlabel⟩ := label_layoutBelow parent v kids
    have hkids := children_layoutBelow parent v kids
    intro l hl
    rcases Tree.mem_walk.1 hl with rfl | ⟨t, ht, hlt⟩
    · show (layoutBelow parent (.node v kids)).label.scope.signals = sizeNames above.head? _
      rw [hparent]
      cases parent with
      | none => exact h.here
      | some p => exact signals_layoutChild p h.here
    · rw [hkids] at ht
      obtain ⟨k, hk, rfl⟩ := List.mem_map.1 ht
      refine ih k hk (h.child k hk) (some v) ?_ l hlt
      intro u
      show sizeNames (some (layoutBelow parent (.node v kids)).label) u = _
      rw [hlabel]
      rfl

/-- Whether the views of a tree have the names of their sizes, and no other names of signals. -/
def SizeScoped (t : ViewTree) : Prop :=
  ∀ l ∈ t.walk [], l.tree.label.scope.signals = l.tree.label.sizeNames l.above.head?

theorem sizeScoped_laidOut (t : TopLevelSpec) : SizeScoped t.laidOut :=
  signals_layoutBelow
    (everywhere_build (fun name form base inherited _ _ =>
      signals_viewOf name form base inherited) _ none t.view) none fun _ => rfl

/-- In a resolved tree the names of signals are those of the sizes. -/
theorem sizeScoped_resolved (settings : Settings) (t : TopLevelSpec) :
    SizeScoped (t.resolved settings) := by
  intro l hl
  have hmem : ⟨l.tree.map View.blank, l.above.map View.blank⟩ ∈
      (t.laidOut.map View.blank).walk [] := by
    have hwalk := Tree.walk_map View.blank (t.resolved settings) []
    rw [map_blank_resolved, List.map_nil] at hwalk
    rw [hwalk]
    exact List.mem_map_of_mem hl
  have hwalk := Tree.walk_map View.blank t.laidOut []
  rw [List.map_nil] at hwalk
  rw [hwalk] at hmem
  obtain ⟨m, hm, heq⟩ := List.mem_map.1 hmem
  obtain ⟨htree, habove⟩ := Located.mk.inj heq
  have hsignals := sizeScoped_laidOut t m hm
  have hlabel : m.tree.label.blank = l.tree.label.blank := by
    have hlabels := congrArg Tree.label htree
    rwa [Tree.label_map, Tree.label_map] at hlabels
  have hown : ∀ parent, m.tree.label.sizeNames parent = l.tree.label.sizeNames parent := by
    intro parent
    show m.tree.label.blank.sizeNames parent = l.tree.label.blank.sizeNames parent
    rw [hlabel]
  have hhead : m.above.head?.map View.blank = l.above.head?.map View.blank := by
    rw [← List.head?_map, ← List.head?_map, habove]
  rw [← signals_eq_of_blank_eq hlabel, hsignals, hown]
  cases hma : m.above.head? with
  | none =>
    rw [hma] at hhead
    rw [Option.map_eq_none_iff.1 hhead.symm]
  | some p =>
    rw [hma] at hhead
    obtain ⟨q, hq, hqp⟩ := Option.map_eq_some_iff.1 hhead.symm
    rw [hq]
    exact sizeNames_eq_of_blank_eq hqp.symm _

/-! ## Looking sizes up -/

/-- Whether some view defines a size signal of a name. -/
def HasSize (t : ViewTree) (n : String) : Prop :=
  ∃ l ∈ t.walk [], ∃ d, l.tree.label.hasLiveSize l.above d = true ∧ l.tree.label.partName d.name = n

/-- A sized view whose size keeps its name defines the signal. -/
theorem hasSize_of_same {t : ViewTree} {l : Located View} (hl : l ∈ t.walk []) {d : Dimension}
    (hsized : l.tree.label.isSized = true)
    (hsame : seenFrom l .signal (l.tree.label.partName d.name) = l.tree.label.partName d.name) :
    t.HasSize (l.tree.label.partName d.name) := by
  refine ⟨l, hl, d, ?_, rfl⟩
  have hsize : l.tree.label.sizeSignal l.above d = l.tree.label.partName d.name := hsame
  unfold hasLiveSize
  rw [hsized, hsize]
  simp

/-- Whether every name is looked up from a view to that of a live size signal, or is let be and is not
that of the view's own size. -/
def SizeOrSame (t : ViewTree) (l : Located View) : Prop :=
  ∀ n, t.HasSize (seenFrom l .signal n) ∨
    seenFrom l .signal n = n ∧
      (l.tree.label.isSized = true → ∀ d : Dimension, l.tree.label.partName d.name ≠ n)

/-- The size of a sized view is looked up to that of the layer around it or to its own, which the
views above it do not change unless they come to a live one. -/
theorem SizeOrSame.hasSize_child {t : ViewTree} {l p : Located View} (hp : SizeOrSame t p)
    (hl : l ∈ t.walk [])
    (hstep : ∀ n, seenFrom l .signal n =
      seenFrom p .signal ((l.tree.label.sizeNames (some p.tree.label)).assigned n))
    (hsized : l.tree.label.isSized = true) (d : Dimension) :
    t.HasSize (seenFrom l .signal (l.tree.label.partName d.name)) := by
  have houter := (hstep _).trans (congrArg _ (assigned_sizeNames hsized (some p.tree.label) d))
  rcases hp (l.tree.label.outerSize (some p.tree.label) d) with hlive | ⟨hsame, hne⟩
  · rw [houter]
    exact hlive
  · by_cases hlayer : p.tree.label.kind = .layer
    · -- the name is that of the layer's own size, so it does not get past the layer unseen
      exact absurd (if_pos hlayer).symm (hne (isSized_of_layer hlayer) d)
    · have hown : l.tree.label.outerSize (some p.tree.label) d = l.tree.label.partName d.name :=
        if_neg hlayer
      rw [hown] at houter hsame
      have hsize := houter.trans hsame
      rw [hsize]
      exact hasSize_of_same hl hsized hsize

namespace SizeScoped

variable {t : ViewTree} (h : SizeScoped t)

include h

theorem seenFrom_root (n : String) :
    seenFrom ⟨t, []⟩ .signal n = (t.label.sizeNames none).assigned n := by
  have hscope : t.label.scope.signals = t.label.sizeNames none := h _ (Tree.self_mem_walk [] t)
  rw [← hscope]
  rfl

theorem seenFrom_child {i : Nat} {a : List Nat} {l : Located View}
    (hl : t.locate? (i :: a) = some l) :
    ∃ p, t.locate? a = some p ∧ ∀ n, seenFrom l .signal n =
      seenFrom p .signal ((l.tree.label.sizeNames (some p.tree.label)).assigned n) := by
  obtain ⟨p, hp, -, hpl⟩ := locate?_parent hl
  refine ⟨p, hp, fun n => ?_⟩
  have hscope := h l (Tree.mem_walk_of_locate? hl)
  have habove : l.above.head? = some p.tree.label := by rw [hpl]; rfl
  rw [habove] at hscope
  rw [← hscope]
  conv => lhs; rw [hpl]
  rfl

theorem sizeOrSame_root : SizeOrSame t ⟨t, []⟩ := by
  intro n
  by_cases hown : t.label.isSized = true ∧ ∃ d : Dimension, t.label.partName d.name = n
  · obtain ⟨hsized, d, rfl⟩ := hown
    have hsame := (h.seenFrom_root _).trans (assigned_sizeNames hsized none d)
    rw [hsame]
    exact Or.inl (hasSize_of_same (Tree.self_mem_walk [] t) hsized hsame)
  · have hne : t.label.isSized = true → ∀ d : Dimension, t.label.partName d.name ≠ n :=
      fun hsized d hd => hown ⟨hsized, d, hd⟩
    exact Or.inr ⟨(h.seenFrom_root n).trans (assigned_sizeNames_of_ne hne none), hne⟩

theorem sizeOrSame_of_locate? (a : List Nat) : ∀ l, t.locate? a = some l → SizeOrSame t l := by
  induction a with
  | nil =>
    intro l hl
    obtain rfl : ⟨t, []⟩ = l := Option.some.inj hl
    exact h.sizeOrSame_root
  | cons i a ih =>
    intro l hl n
    have hmem := Tree.mem_walk_of_locate? hl
    obtain ⟨p, hp, hstep⟩ := h.seenFrom_child hl
    by_cases hown : l.tree.label.isSized = true ∧ ∃ d : Dimension, l.tree.label.partName d.name = n
    · obtain ⟨hsized, d, rfl⟩ := hown
      exact Or.inl ((ih p hp).hasSize_child hmem hstep hsized d)
    · have hne : l.tree.label.isSized = true → ∀ d : Dimension, l.tree.label.partName d.name ≠ n :=
        fun hsized d hd => hown ⟨hsized, d, hd⟩
      rw [hstep, assigned_sizeNames_of_ne hne]
      exact (ih p hp n).imp id fun hsame => ⟨hsame.1, hne⟩

/-- The sizes of units and layers are live signals. -/
theorem hasSize_sizeSignal {l : Located View} (hl : l ∈ t.walk [])
    (hsized : l.tree.label.isSized = true) (d : Dimension) :
    t.HasSize (l.tree.label.sizeSignal l.above d) := by
  obtain ⟨a, ha⟩ := Tree.mem_walk_iff_locate?.1 hl
  rcases h.sizeOrSame_of_locate? a l ha (l.tree.label.partName d.name) with hlive | ⟨-, hne⟩
  · exact hlive
  · exact absurd rfl (hne hsized d)

/-- A name that is not that of the size of the view or of one above it is let be. -/
theorem lookup_of_not_size {n : String} (a : List Nat) :
    ∀ l, t.locate? a = some l → (∀ b m, b <:+ a → t.locate? b = some m →
      m.tree.label.isSized = true → ∀ d : Dimension, m.tree.label.partName d.name ≠ n) →
      seenFrom l .signal n = n := by
  induction a with
  | nil =>
    intro l hl hn
    obtain rfl : ⟨t, []⟩ = l := Option.some.inj hl
    rw [h.seenFrom_root]
    exact assigned_sizeNames_of_ne (hn [] _ List.suffix_rfl rfl) none
  | cons i a ih =>
    intro l hl hn
    obtain ⟨p, hp, hstep⟩ := h.seenFrom_child hl
    rw [hstep, assigned_sizeNames_of_ne (hn _ l List.suffix_rfl hl)]
    exact ih p hp fun b m hb => hn b m (hb.trans (List.suffix_cons i a))

/-- Where no view has a name of its own, the size of a facet or a concatenation is looked up to a
name that no signal has. -/
theorem not_hasSize_sizeSignal (hnumbered : t.Everywhere fun u => NumberedNames (u.map View.name))
    {l : Located View} (hl : l ∈ t.walk []) (hunsized : l.tree.label.isSized = false)
    (d : Dimension) : ¬ t.HasSize (l.tree.label.sizeSignal l.above d) := by
  obtain ⟨a, ha⟩ := Tree.mem_walk_iff_locate?.1 hl
  have hn : ∀ m ∈ t.walk [], m.tree.label.isSized = true →
      ∀ e : Dimension, m.tree.label.partName e.name ≠ l.tree.label.partName d.name := by
    intro m hm hsized e
    obtain ⟨b, hb⟩ := Tree.mem_walk_iff_locate?.1 hm
    refine partName_ne hnumbered hb ha ?_ (isOwnPart_dimension e) (isOwnPart_dimension d)
    rintro rfl
    obtain rfl := Option.some.inj (hb.symm.trans ha)
    exact Bool.false_ne_true (hunsized.symm.trans hsized)
  have hsame : l.tree.label.sizeSignal l.above d = l.tree.label.partName d.name :=
    h.lookup_of_not_size a l ha fun _ m _ hm => hn m (Tree.mem_walk_of_locate? hm)
  rw [hsame]
  rintro ⟨m, hm, e, hlive, hname⟩
  exact hn m hm (Bool.and_eq_true_iff.1 hlive).1 e hname

end SizeScoped

end ViewTree

end ChartLowering
