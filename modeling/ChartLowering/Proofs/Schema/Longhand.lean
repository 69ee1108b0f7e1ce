import ChartLowering.Compile
import ChartLowering.Proofs.Schema.Shorthand

/-
  Shorthand in a tree of views.

  The views of a value are those that it is read as: only the values under the keys that count hold
  views. Shorthand may be spelled out at any places among them (`longhand`), and a whole
  specification may stand as its view or have it under a key of its own (`explicitTop`). Every view
  is read as before, by induction on the value (`readsSame`), so the specification is the same and
  compiles to the same (`lower_longhand`).
-/

namespace ChartLowering

namespace Schema

/-- The key that holds the views below a view. -/
def childKey? (fs : Fields) : Option String :=
  match viewKind? fs with
  | some .layer => some "layer"
  | some .facet => some "spec"
  | some .concat => some (concatKey fs).1
  | _ => none

mutual

/-- A view with the shorthand of the views at some places spelled out. A place is the positions on
the way up to the outermost view, the view's own first. -/
def longhand (places : List Nat → Bool) (address : List Nat) : Json → Json
  | .obj fs =>
    let inside : Fields := ⟨longhandFields places address (childKey? ⟨fs⟩) fs⟩
    .ofFields (if places address then spellOut inside else inside)
  | j => j

def longhandList (places : List Nat → Bool) (address : List Nat) : Json → Json
  | .arr items => .arr (longhandItems places address 0 items)
  | j => j

def longhandItems (places : List Nat → Bool) (address : List Nat) (i : Nat) :
    List Json → List Json
  | [] => []
  | j :: rest => longhand places (i :: address) j :: longhandItems places address (i + 1) rest

/-- The fields of a view, with the views under a key treated likewise. -/
def longhandFields (places : List Nat → Bool) (address : List Nat) (key? : Option String) :
    List (String × Json) → List (String × Json)
  | [] => []
  | (k, j) :: rest =>
    (k, if key? ≠ some k then j
        else if k = "spec" then longhand places (0 :: address) j
        else longhandList places address j) :: longhandFields places address key? rest

end

section Trees

variable {places : List Nat → Bool}

theorem childKey?_mem {fs : Fields} {k : String} (h : childKey? fs = some k) :
    k ∈ ["layer", "spec", "concat", "hconcat", "vconcat"] := by
  unfold childKey? at h
  split at h
  · rw [← Option.some.inj h]
    decide
  · rw [← Option.some.inj h]
    decide
  · rw [← Option.some.inj h]
    exact List.mem_cons_of_mem _ (List.mem_cons_of_mem _ (concatKey_mem fs))
  · cases h

/-- Whether a value is read as before, as a view and as a list of views. -/
structure ReadsSame (places : List Nat → Bool) (j : Json) : Prop where
  one : ∀ address, readView (longhand places address j) = readView j
  many : ∀ address, readViews (longhandList places address j) = readViews j

/-- A view in which the views below are spelled out. -/
def inside (places : List Nat → Bool) (address : List Nat) (fs : Fields) : Fields :=
  ⟨longhandFields places address (childKey? fs) fs.entries⟩

/-- The fields of a view with its tree spelled out. -/
def longhandView (places : List Nat → Bool) (address : List Nat) (fs : Fields) : Fields :=
  if places address then spellOut (inside places address fs) else inside places address fs

theorem longhand_obj (address : List Nat) (fs : Fields) :
    longhand places address (.ofFields fs) = .ofFields (longhandView places address fs) := by
  rw [Json.ofFields, longhand]
  rfl

/-! ## What is below a view -/

section Inside

variable (address : List Nat) (fs : Fields)

theorem get?_inside (k : String) : (inside places address fs).get? k =
    (fs.get? k).map fun j =>
      if childKey? fs ≠ some k then j
      else if k = "spec" then longhand places (0 :: address) j
      else longhandList places address j := by
  obtain ⟨l⟩ := fs
  show OrderedMap.find? k (longhandFields places address (childKey? ⟨l⟩) l) =
    (OrderedMap.find? k l).map _
  generalize childKey? ⟨l⟩ = key?
  induction l with
  | nil => rfl
  | cons e rest ih =>
    obtain ⟨k', j⟩ := e
    rw [longhandFields, OrderedMap.find?, OrderedMap.find?]
    split
    · rename_i hk
      rw [hk]
      rfl
    · exact ih

theorem contains_inside (k : String) :
    (inside places address fs).contains k = fs.contains k := by
  unfold OrderedMap.contains
  rw [get?_inside, Option.isSome_map]

theorem concatKey_inside : concatKey (inside places address fs) = concatKey fs := by
  unfold concatKey
  simp only [contains_inside]

theorem viewKind?_inside : viewKind? (inside places address fs) = viewKind? fs := by
  unfold viewKind?
  simp only [contains_inside]

variable {fs}

/-- Only the views below a view are changed. -/
theorem get?_inside_of_ne {k : String} (hk : childKey? fs ≠ some k) :
    (inside places address fs).get? k = fs.get? k := by
  rw [get?_inside]
  simp only [if_pos hk, Option.map_id']

variable (h : ∀ e ∈ fs.entries, ReadsSame places e.2)

include h

theorem viewsUnder_inside {k : String} (hk : childKey? fs = some k) (hspec : k ≠ "spec") :
    viewsUnder (inside places address fs) k = viewsUnder fs k := by
  unfold viewsUnder
  rw [get?_inside]
  cases hj : fs.get? k with
  | none => rfl
  | some j =>
    simp only [hk, Option.map_some, ne_eq, not_true_eq_false, if_false, if_neg hspec]
    exact (h _ (OrderedMap.mem_entries_of_get? hj)).many address

theorem viewUnder_inside (hk : childKey? fs = some "spec") :
    viewUnder (inside places address fs) "spec" = viewUnder fs "spec" := by
  unfold viewUnder
  rw [get?_inside]
  cases hj : fs.get? "spec" with
  | none => rfl
  | some j =>
    simp only [hk, Option.map_some, ne_eq, not_true_eq_false, if_false, if_true]
    exact (h _ (OrderedMap.mem_entries_of_get? hj)).one (0 :: address)

/-- A view is read as before if the views below it are. -/
theorem sameReading_inside : SameReading fs (inside places address fs) := by
  refine ⟨viewKind?_inside address fs, fun k hk => get?_inside_of_ne address ?shared,
    fun kind hkind => ?parts⟩
  case shared =>
    have hapart : ∀ k ∈ sharedKeys, k ∉ ["layer", "spec", "concat", "hconcat", "vconcat"] := by
      decide
    exact fun hchild => hapart k hk (childKey?_mem hchild)
  case parts =>
    cases kind with
    | unit =>
      refine requiredField_congr (get?_inside_of_ne address ?_)
      rw [childKey?, hkind]
      nofun
    | layer =>
      refine viewsUnder_inside address h ?_ (by decide)
      rw [childKey?, hkind]
    | facet =>
      have hchild : childKey? fs = some "spec" := by rw [childKey?, hkind]
      refine ⟨requiredField_congr (get?_inside_of_ne address ?_), viewUnder_inside address h hchild⟩
      rw [hchild]
      decide
    | concat =>
      have hchild : childKey? fs = some (concatKey fs).1 := by rw [childKey?, hkind]
      have hapart : ∀ k ∈ ["concat", "hconcat", "vconcat"], k ≠ "spec" ∧ k ≠ "direction" := by
        decide
      obtain ⟨hspec, hdirection⟩ := hapart _ (concatKey_mem fs)
      refine ⟨?_, ?_⟩
      · rw [concatKey_inside]
        exact viewsUnder_inside address h hchild hspec
      · unfold directionOf
        rw [concatKey_inside, optionalField_congr (get?_inside_of_ne address ?_)]
        rw [hchild]
        exact fun hkey => hdirection (Option.some.inj hkey)

theorem sameReading_longhandView : SameReading fs (longhandView places address fs) := by
  unfold longhandView
  split
  · exact (sameReading_inside address h).trans (sameReading_spellOut _)
  · exact sameReading_inside address h

end Inside

/-! ## Whole trees -/

mutual

theorem readsSame : ∀ j : Json, ReadsSame places j
  | .null | .bool _ | .num _ | .str _ | .table _ => ⟨fun _ => rfl, fun _ => rfl⟩
  | .arr items =>
    ⟨fun _ => rfl, fun address => by
      rw [longhandList, readViews, readViews]
      exact readViewItems_longhand address 0 items⟩
  | .obj fs =>
    ⟨fun address => by
      rw [show Json.obj fs = .ofFields ⟨fs⟩ from rfl, longhand_obj]
      exact (sameReading_longhandView address (readsSame_fields fs)).readView_eq, fun _ => rfl⟩

theorem readViewItems_longhand (address : List Nat) (i : Nat) : ∀ items : List Json,
    readViewItems i (longhandItems places address i items) = readViewItems i items
  | [] => rfl
  | j :: rest => by
    rw [longhandItems, readViewItems, readViewItems, (readsSame j).one,
      readViewItems_longhand address (i + 1) rest]

theorem readsSame_fields : ∀ fs : List (String × Json), ∀ e ∈ fs, ReadsSame places e.2
  | [], _, he => absurd he List.not_mem_nil
  | (_, j) :: rest, e, he => by
    rcases List.mem_cons.1 he with rfl | he
    · exact readsSame j
    · exact readsSame_fields rest e he

end

/-- What is no part of a view stays as it is. -/
theorem get?_longhandView_of_notMem (address : List Nat) (fs : Fields) {k : String}
    (hk : k ∉ viewKeys) : (longhandView places address fs).get? k = fs.get? k := by
  have hchild : childKey? fs ≠ some k := by
    intro h
    have hmem : ∀ k ∈ ["layer", "spec", "concat", "hconcat", "vconcat"], k ∈ viewKeys := by decide
    exact hk (hmem k (childKey?_mem h))
  unfold longhandView
  split
  · rw [get?_spellOut_of_notMem _ hk, get?_inside_of_ne address hchild]
  · exact get?_inside_of_ne address hchild

end Trees

/-! ## Whole specifications -/

/-- A specification that stands as its view, with the view under a key of its own beside the
datasets and the configuration. -/
def explicitTop (fs : Fields) : Fields :=
  let view := fs.filterKeys fun k => k != "$schema" && k != "datasets" && k != "config"
  ⟨("view", .ofFields view) :: fs.pick ["datasets", "config"]⟩

/-- A whole specification with its view under a key of its own; it may be so already. -/
def lift : Json → Json
  | .obj fs => if (viewKind? ⟨fs⟩).isSome then .ofFields (explicitTop ⟨fs⟩) else .obj fs
  | j => j

/-- A whole specification with the shorthand of the views at some places spelled out. -/
def longhandTop (places : List Nat → Bool) : Json → Json
  | .obj fs =>
    if (viewKind? ⟨fs⟩).isSome then .ofFields (longhandView places [] ⟨fs⟩)
    else .ofFields ((OrderedMap.mk fs).adjust "view" (longhand places []))
  | j => j

section TopLevel

variable {fs : Fields} {kind : ViewKind}

theorem keys_explicitTop_sublist (fs : Fields) : (explicitTop fs).keys.Sublist topLevelKeys :=
  (fs.map_fst_pick_sublist ["datasets", "config"]).cons_cons "view"

theorem readTopLevelFields_explicitTop (fs : Fields) :
    readTopLevelFields (topLevelFields (explicitTop fs)) = readPlain fs := by
  have hkeys : ∀ k ∈ (explicitTop fs).keys, k ∈ topLevelKeys := (keys_explicitTop_sublist fs).subset
  have hnone : viewKind? (explicitTop fs) = none := by
    have habsent : ∀ k ∈ viewKeys, (explicitTop fs).contains k = false := by
      intro k hk
      have hapart : ∀ k ∈ viewKeys, k ∉ topLevelKeys := by decide
      rw [Bool.eq_false_iff, Ne, OrderedMap.contains_iff_mem_keys]
      exact fun hmem => hapart k hk (hkeys k hmem)
    unfold viewKind?
    rw [habsent "mark" (by decide), habsent "layer" (by decide), habsent "facet" (by decide),
      habsent "concat" (by decide), habsent "hconcat" (by decide), habsent "vconcat" (by decide)]
    rfl
  have htop : topLevelFields (explicitTop fs) = explicitTop fs := by
    unfold topLevelFields
    rw [hnone]
  have hpicked : ∀ k ∈ ["datasets", "config"], (explicitTop fs).get? k = fs.get? k := by
    intro k hk
    have hne : ∀ k ∈ ["datasets", "config"], k ≠ "view" := by decide
    rw [explicitTop, OrderedMap.get?, OrderedMap.find?, if_neg (hne k hk)]
    exact fs.find?_pick hk
  rw [htop]
  refine readTopLevelFields_eq_readPlain ?_ (hpicked _ (by decide)) (hpicked _ (by decide)) hkeys
  exact congrArg (Check.underKey "view") (readView_filterKeys (by decide) fs)

/-- A specification is read as before with its view under a key of its own. -/
theorem readTopLevel_lift (j : Json) : readTopLevel (lift j) = readTopLevel j := by
  cases j with
  | obj l =>
    rw [lift]
    split
    · rename_i hplain
      obtain ⟨kind, hkind⟩ := Option.isSome_iff_exists.1 hplain
      exact (readTopLevelFields_explicitTop ⟨l⟩).trans (readTopLevelFields_of_plain hkind).symm
    · rfl
  | null | bool | num | str | arr | table => rfl

/-- A specification that stands as its view is read as before with the view spelled out. -/
theorem readTopLevelFields_longhandView (places : List Nat → Bool) (h : viewKind? fs = some kind) :
    readTopLevelFields (topLevelFields (longhandView places [] fs)) =
      readTopLevelFields (topLevelFields fs) := by
  have hsame : SameReading fs (longhandView places [] fs) :=
    sameReading_longhandView [] (readsSame_fields fs.entries)
  have hother {k : String} (hk : k ∉ viewKeys) :
      (longhandView places [] fs).get? k = fs.get? k :=
    get?_longhandView_of_notMem [] fs hk
  rw [readTopLevelFields_of_plain h, readTopLevelFields_of_plain (hsame.kind.trans h)]
  unfold readPlain
  rw [hsame.readView_eq, optionalField_congr (hother (k := "datasets") (by decide)),
    optionalField_congr (hother (k := "config") (by decide))]

/-- So is one whose view stands under a key of its own. -/
theorem readTopLevelFields_adjust_view (places : List Nat → Bool) (h : viewKind? fs = none) :
    readTopLevelFields (topLevelFields (fs.adjust "view" (longhand places []))) =
      readTopLevelFields (topLevelFields fs) := by
  have hadjusted : viewKind? (fs.adjust "view" (longhand places [])) = none :=
    (viewKind?_adjust fs "view" _).trans h
  have hother {k : String} (hk : k ≠ "view") :
      (fs.adjust "view" (longhand places [])).get? k = fs.get? k :=
    OrderedMap.get?_adjust_of_ne fs _ hk
  unfold topLevelFields
  rw [h, hadjusted]
  unfold readTopLevelFields noExtraKeys
  rw [requiredField_adjust (fun j => (readsSame j).one []), OrderedMap.keys_adjust,
    optionalField_congr (hother (k := "datasets") (by decide)),
    optionalField_congr (hother (k := "config") (by decide))]

/-- A specification is read as before with its views spelled out. -/
theorem readTopLevel_longhandTop (places : List Nat → Bool) (j : Json) :
    readTopLevel (longhandTop places j) = readTopLevel j := by
  cases j with
  | obj l =>
    rw [longhandTop]
    split
    · rename_i hplain
      obtain ⟨kind, hkind⟩ := Option.isSome_iff_exists.1 hplain
      exact readTopLevelFields_longhandView places hkind
    · rename_i hno
      exact readTopLevelFields_adjust_view places (Option.not_isSome_iff_eq_none.1 hno)
  | null | bool | num | str | arr | table => rfl

end TopLevel

/-! ## Distinct keys -/

section Distinct

variable {fs : Fields} {places : List Nat → Bool}

theorem map_fst_longhandFields (address : List Nat) (key? : Option String)
    (l : List (String × Json)) :
    (longhandFields places address key? l).map Prod.fst = l.map Prod.fst := by
  induction l with
  | nil => rfl
  | cons e rest ih => rw [longhandFields, List.map_cons, List.map_cons, ih]

mutual

theorem distinctKeys_longhand (address : List Nat) : ∀ j : Json, j.distinctKeys = true →
    (longhand places address j).distinctKeys = true
  | .null, h | .bool _, h | .num _, h | .str _, h | .arr _, h | .table _, h => h
  | .obj fs, h => by
    obtain ⟨hkeys, hfields⟩ := Json.distinctKeys_obj h
    have hinside : (Json.ofFields
        ⟨longhandFields places address (childKey? ⟨fs⟩) fs⟩).distinctKeys = true := by
      rw [Json.ofFields, Json.distinctKeys, Bool.and_eq_true, decide_eq_true_eq,
        map_fst_longhandFields]
      exact ⟨hkeys, distinctKeys_longhandFields address _ fs hfields⟩
    rw [longhand]
    split
    · exact distinctKeys_spellOut hinside
    · exact hinside

theorem distinctKeys_longhandList (address : List Nat) : ∀ j : Json, j.distinctKeys = true →
    (longhandList places address j).distinctKeys = true
  | .null, h | .bool _, h | .num _, h | .str _, h | .obj _, h | .table _, h => h
  | .arr items, h => by
    rw [Json.distinctKeys] at h
    rw [longhandList, Json.distinctKeys]
    exact distinctKeys_longhandItems address 0 items h

theorem distinctKeys_longhandItems (address : List Nat) (i : Nat) : ∀ items : List Json,
    Json.distinctKeysAll items = true →
      Json.distinctKeysAll (longhandItems places address i items) = true
  | [], _ => rfl
  | j :: rest, h => by
    rw [Json.distinctKeysAll, Bool.and_eq_true] at h
    rw [longhandItems, Json.distinctKeysAll, Bool.and_eq_true]
    exact ⟨distinctKeys_longhand _ j h.1, distinctKeys_longhandItems address (i + 1) rest h.2⟩

theorem distinctKeys_longhandFields (address : List Nat) (key? : Option String) :
    ∀ l : List (String × Json), Json.distinctKeysFields l = true →
      Json.distinctKeysFields (longhandFields places address key? l) = true
  | [], _ => rfl
  | (k, j) :: rest, h => by
    rw [Json.distinctKeysFields, Bool.and_eq_true] at h
    rw [longhandFields, Json.distinctKeysFields, Bool.and_eq_true]
    refine ⟨?_, distinctKeys_longhandFields address key? rest h.2⟩
    split
    · exact h.1
    · split
      · exact distinctKeys_longhand (0 :: address) j h.1
      · exact distinctKeys_longhandList address j h.1

end

theorem distinctKeys_longhandTop (j : Json) (h : j.distinctKeys = true) :
    (longhandTop places j).distinctKeys = true := by
  cases j with
  | obj l =>
    rw [longhandTop]
    split
    · rw [← longhand_obj]
      exact distinctKeys_longhand [] _ h
    · exact Json.distinctKeys_adjust h "view" (distinctKeys_longhand [])
  | null | bool | num | str | arr | table => exact h

theorem distinctKeys_lift (j : Json) (h : j.distinctKeys = true) :
    (lift j).distinctKeys = true := by
  cases j with
  | obj l =>
    rw [lift]
    split
    · refine Json.distinctKeys_ofFields.2 ⟨(keys_explicitTop_sublist ⟨l⟩).nodup (by decide), ?_⟩
      intro v hv
      rcases List.mem_cons.1 hv with rfl | hv
      · exact Json.distinctKeys_filterKeys h _
      · obtain ⟨e, he, rfl⟩ := List.mem_map.1 hv
        obtain ⟨k, -, he⟩ := List.mem_filterMap.1 he
        obtain ⟨j, hj, rfl⟩ := Option.map_eq_some_iff.1 he
        exact Json.distinctKeys_of_find? (Json.distinctKeys_obj h).2 hj
    · exact h
  | null | bool | num | str | arr | table => exact h

end Distinct

end Schema

/-- Shorthand means what it stands for. Take a value whose objects have distinct keys and that is
read as a specification, spell out the shorthand of its views at any places, and put the view under a
key of its own or not. The result has distinct keys, is read as the same specification, and compiles
to the same. -/
theorem lower_longhand {j : Json} {t : TopLevelSpec} (hdistinct : j.distinctKeys = true)
    (hread : Schema.readTopLevel j = .valid t) (places : List Nat → Bool) :
    ∀ k ∈ [Schema.longhandTop places j, Schema.lift (Schema.longhandTop places j)],
      k.distinctKeys = true ∧ Schema.readTopLevel k = .valid t ∧
        ∀ settings, lower settings k = lower settings j := by
  have hsame : ∀ k : Json, k.distinctKeys = true →
      Schema.readTopLevel k = Schema.readTopLevel j →
        k.distinctKeys = true ∧ Schema.readTopLevel k = .valid t ∧
          ∀ settings, lower settings k = lower settings j := by
    intro k hkeys hk
    refine ⟨hkeys, hk.trans hread, fun settings => ?_⟩
    unfold lower
    rw [hk]
  have hkeys : (Schema.longhandTop places j).distinctKeys = true :=
    Schema.distinctKeys_longhandTop j hdistinct
  have htop := Schema.readTopLevel_longhandTop places j
  rw [List.forall_mem_cons, List.forall_mem_singleton]
  exact ⟨hsame _ hkeys htop,
    hsame _ (Schema.distinctKeys_lift _ hkeys) ((Schema.readTopLevel_lift _).trans htop)⟩

/-- A plain specification of points beside faceted bars, and what its shorthand stands for: it is
spelled out but for the mark of the points. -/
theorem lower_longhand_barsBeside :
    let bars : Json := .obj [("facet", .obj [("field", .str "region")]),
      ("spec", .obj [("mark", .str "bar")])]
    let points : Json := .obj [("mark", .str "point")]
    let short : Json := .obj [("$schema", .str "any"), ("datasets", .obj [("cars", .arr [])]),
      ("direction", .str "vertical"), ("hconcat", .arr [points, bars])]
    let long : Json := .obj [("view", .obj [("direction", .str "horizontal"),
        ("concat", .arr [points, .obj [("facet", .obj [("facet", .obj [("field", .str "region")])]),
          ("spec", .obj [("mark", .obj [("type", .str "bar")])])]])]),
      ("datasets", .obj [("cars", .arr [])])]
    (∃ t, Schema.readTopLevel short = .valid t ∧ Schema.readTopLevel long = .valid t) ∧
      ∀ settings, lower settings long = lower settings short := by
  intro bars points short long
  have hlong : long = Schema.lift (Schema.longhandTop (fun a => a ∈ [[], [1], [0, 1]]) short) := by
    decide +kernel
  have hdistinct : short.distinctKeys = true := by decide +kernel
  obtain ⟨t, ht⟩ : ∃ t, Schema.readTopLevel short = .valid t := ⟨_, rfl⟩
  obtain ⟨-, hread, hlower⟩ := lower_longhand hdistinct ht (fun a => a ∈ [[], [1], [0, 1]]) _
    (List.mem_cons_of_mem _ List.mem_cons_self)
  rw [hlong]
  exact ⟨⟨t, ht, hread⟩, hlower⟩

end ChartLowering
