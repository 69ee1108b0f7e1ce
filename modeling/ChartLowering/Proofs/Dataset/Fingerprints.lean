import ChartLowering.Proofs.Dataset.Linking
import ChartLowering.Proofs.Json.Collision

/-
  What fingerprints tell apart.

  A step is fingerprinted by its kind and its parameters, and a chain by the name of the source and
  the fingerprints of the transforms. As long as no fingerprints collide, these tell transforms and
  pipelines apart exactly as their parameters do (`Transform.sorted_json_eq_iff`,
  `Pipeline.chain?_eq_iff_same`). Values are compared up to the order of keys, and whole numbers are
  told apart from floating-point ones. A view that a projection is looked up from is no parameter.
-/

namespace ChartLowering

/-! ## What is fingerprinted -/

/-- What is fingerprinted of a step. -/
def FlowStep.json (s : FlowStep) : Json := .obj (("type", .str s.kind) :: s.parameters)

/-- What is fingerprinted of a source with the transforms after it. -/
def Registry.chainJson (source : Source) (transforms : List Transform) : Json :=
  .arr [.str source.name, .strings (transforms.map fun t => (FlowStep.transform t).fingerprint)]

theorem Registry.sorted_chainJson (source : Source) (transforms : List Transform) :
    (chainJson source transforms).sorted = chainJson source transforms := by
  rw [chainJson, Json.sorted, Json.sortedItems, Json.sortedItems, Json.sorted_strings]
  rfl

/-- The values that are fingerprinted when an output is linked. -/
def Pipeline.hashed (p : Pipeline) : List Json :=
  match p.source, p.transforms with
  | some s, t :: ts =>
    Registry.chainJson s (t :: ts) :: (t :: ts).map fun t => (FlowStep.transform t).json
  | _, _ => []

/-! ## Transforms -/

/-- Lists whose items have equal images, if items with equal images are related. -/
theorem forall₂_of_map_eq {α β : Type} {R : α → α → Prop} {f : α → β} {l l' : List α}
    (h : l.map f = l'.map f) (hrel : ∀ a ∈ l, ∀ b ∈ l', f a = f b → R a b) :
    List.Forall₂ R l l' := by
  induction l generalizing l' with
  | nil =>
    obtain rfl := List.map_eq_nil_iff.1 h.symm
    exact .nil
  | cons a rest ih =>
    cases l' with
    | nil => cases h
    | cons b rest' =>
      rw [List.map_cons, List.map_cons, List.cons.injEq] at h
      refine .cons (hrel a List.mem_cons_self b List.mem_cons_self h.1) (ih h.2 ?_)
      exact fun x hx y hy =>
        hrel x (List.mem_cons_of_mem _ hx) y (List.mem_cons_of_mem _ hy)

/-- Whether two coordinates are the same value, up to the order of keys. -/
def Coordinate.Same (c c' : Coordinate) : Prop := c.toJson.sorted = c'.toJson.sorted

namespace Transform

/-- Whether two transforms are of one kind and have the same parameters. -/
inductive Same : Transform → Transform → Prop where
  | geojson {coordinates coordinates' : Option (List Coordinate)}
      (h : Option.Rel (List.Forall₂ Coordinate.Same) coordinates coordinates')
      (geometry : Option String) (signal : String) :
      Same (.geojson coordinates geometry signal) (.geojson coordinates' geometry signal)
  | geopoint {coordinates coordinates' : List Coordinate}
      (h : List.Forall₂ Coordinate.Same coordinates coordinates') (projection : String)
      (positions : List String) (view view' : Option Nat) :
      Same (.geopoint projection coordinates positions view)
        (.geopoint projection coordinates' positions view')

theorem sorted_coordinatesJson_eq_iff {l l' : List Coordinate} :
    (coordinatesJson l).sorted = (coordinatesJson l').sorted ↔ List.Forall₂ Coordinate.Same l l' := by
  have hsorted (l : List Coordinate) :
      (coordinatesJson l).sorted = .arr (l.map fun c => c.toJson.sorted) := by
    rw [coordinatesJson, Json.sorted, Json.sortedItems_eq_map, List.map_map]
    rfl
  rw [hsorted, hsorted, Json.arr.injEq, ← List.forall₂_eq_eq_eq, List.forall₂_map_left_iff,
    List.forall₂_map_right_iff]
  exact Iff.rfl

theorem sorted_orNull_coordinatesJson_eq_iff {l l' : Option (List Coordinate)} :
    (Json.orNull coordinatesJson l).sorted = (Json.orNull coordinatesJson l').sorted ↔
      Option.Rel (List.Forall₂ Coordinate.Same) l l' := by
  cases l with
  | none =>
    cases l' with
    | none => exact ⟨fun _ => .none, fun _ => rfl⟩
    | some m => exact ⟨nofun, nofun⟩
  | some m =>
    cases l' with
    | none => exact ⟨nofun, nofun⟩
    | some m' =>
      exact sorted_coordinatesJson_eq_iff.trans ⟨.some, fun h => by cases h; assumption⟩

/-- Transforms are fingerprinted alike exactly if they are the same. -/
theorem sorted_json_eq_iff {t t' : Transform} :
    (FlowStep.transform t).json.sorted = (FlowStep.transform t').json.sorted ↔ t.Same t' := by
  constructor
  · intro h
    have hfield := Json.map_sorted_field?_eq h
    have hkind : t.kind = t'.kind := Json.str.inj (Option.some.inj (hfield "type"))
    cases t with
    | geojson coordinates geometry signal =>
      cases t' with
      | geopoint projection coordinates' positions view => simp [kind] at hkind
      | geojson coordinates' geometry' signal' =>
        have hsignal := Json.str.inj (Option.some.inj (hfield "signal"))
        subst hsignal
        have hgeometry : geometry = geometry' := by
          have hsome := Option.some.inj (hfield "geojson")
          cases geometry <;> cases geometry' <;> cases hsome <;> rfl
        subst hgeometry
        have hfields := Option.some.inj (hfield "fields")
        exact .geojson (sorted_orNull_coordinatesJson_eq_iff.1 hfields) geometry signal
    | geopoint projection coordinates positions view =>
      cases t' with
      | geojson coordinates' geometry signal => simp [kind] at hkind
      | geopoint projection' coordinates' positions' view' =>
        have hpositions : positions = positions' := by
          have has : (Json.strings positions).sorted = (Json.strings positions').sorted :=
            Option.some.inj (hfield "as")
          rw [Json.sorted_strings, Json.sorted_strings] at has
          exact Json.strings_injective has
        subst hpositions
        have hprojection := Json.str.inj (Option.some.inj (hfield "projection"))
        subst hprojection
        have hfields := Option.some.inj (hfield "fields")
        exact .geopoint (sorted_coordinatesJson_eq_iff.1 hfields) projection positions view view'
  · intro h
    refine Json.sorted_obj_congr ?_
    cases h with
    | geojson h geometry signal =>
      have hfields := sorted_orNull_coordinatesJson_eq_iff.2 h
      simp only [FlowStep.parameters, parameters, List.map_cons, hfields]
      rfl
    | geopoint h projection positions view view' =>
      have hfields := sorted_coordinatesJson_eq_iff.2 h
      simp only [FlowStep.parameters, parameters, List.map_cons, hfields]
      rfl

end Transform

/-! ## Fingerprints of chains -/

/-- Whether two pipelines start from sources of one name and have the same transforms. -/
structure Pipeline.Same (p q : Pipeline) : Prop where
  source : p.source.map Source.name = q.source.map Source.name
  transforms : List.Forall₂ Transform.Same p.transforms q.transforms

/-- As long as no fingerprints collide, exactly the pipelines that are the same as one with
transforms have its chain. -/
theorem Pipeline.chain?_eq_iff_same {p q : Pipeline} {values : List Json}
    (hfree : Json.CollisionFree values) (hp : p.hashed ⊆ values) (hq : q.hashed ⊆ values)
    {chain : String} (hchain : p.chain? = some chain) : q.chain? = some chain ↔ q.Same p := by
  obtain ⟨s, t, ts, rfl, rfl⟩ := chain?_eq_some hchain
  constructor
  · intro hqchain
    obtain ⟨s', t', ts', rfl, hequal⟩ := chain?_eq_some hqchain
    have hchains : (Registry.chainJson s (t :: ts)).sorted = (Registry.chainJson s' (t' :: ts')).sorted :=
      hfree _ (hp List.mem_cons_self) _ (hq List.mem_cons_self) hequal
    rw [Registry.sorted_chainJson, Registry.sorted_chainJson] at hchains
    obtain ⟨hnames, hrest⟩ := List.cons.inj (Json.arr.inj hchains)
    have hprints := Json.strings_injective (List.cons.inj hrest).1
    refine ⟨congrArg some (Json.str.inj hnames.symm), forall₂_of_map_eq hprints.symm ?_⟩
    intro a ha b hb hab
    have ha' := hq (List.mem_cons_of_mem _ (List.mem_map_of_mem ha))
    have hb' := hp (List.mem_cons_of_mem _ (List.mem_map_of_mem hb))
    exact Transform.sorted_json_eq_iff.1 (hfree _ ha' _ hb' hab)
  · obtain ⟨source, transforms⟩ := q
    rintro ⟨hsource, htransforms⟩
    obtain ⟨s', rfl, hname⟩ := Option.map_eq_some_iff.1 hsource
    have hprints : transforms.map (fun t => (FlowStep.transform t).fingerprint) =
        (t :: ts).map fun t => (FlowStep.transform t).fingerprint := by
      rw [← List.forall₂_eq_eq_eq, List.forall₂_map_left_iff, List.forall₂_map_right_iff]
      exact htransforms.imp fun _ _ hsame =>
        Json.fingerprint_eq_of_sorted_eq (Transform.sorted_json_eq_iff.2 hsame)
    cases htransforms with
    | cons hsame hrest =>
      show some (Registry.chainFingerprint _ _) = some _
      unfold Registry.chainFingerprint
      rw [hname, hprints]

end ChartLowering
