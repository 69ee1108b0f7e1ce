import ChartLowering.Proofs.Output.References
import ChartLowering.Proofs.Sharing.AllOrNothing

/-
  Generated names in a document.

  A scale is written under a generated name, and a guide refers to a scale by one, unless they set
  these themselves. Where no component does (`GeneratedNames`) every scale and every guide holds a
  generated name, under a key that the entry itself tells (`GeneratedNames.exists_name`).
-/

namespace ChartLowering

/-! ## Changing one value -/

namespace OrderedMap

variable {κ α : Type} [DecidableEq κ]

/-- Changes the value of a key that has one. -/
def modify (k : κ) (g : α → α) (m : OrderedMap κ α) : OrderedMap κ α :=
  match m.get? k with
  | some a => m.insert k (g a)
  | none => m

theorem modify_of_get? {m : OrderedMap κ α} {k : κ} {a : α} (h : m.get? k = some a) (g : α → α) :
    m.modify k g = m.insert k (g a) := by
  unfold modify
  rw [h]

theorem modify_insert_self (m : OrderedMap κ α) (k : κ) (a : α) (g : α → α) :
    (m.insert k a).modify k g = m.insert k (g a) := by
  rw [modify_of_get? (get?_insert_self m k a), insert_insert]

theorem modify_cons_self (k : κ) (a : α) (rest : List (κ × α)) (g : α → α) :
    (OrderedMap.mk ((k, a) :: rest)).modify k g = ⟨(k, g a) :: rest⟩ := by
  simp [modify, get?, find?, insert, put]

theorem modify_overlay {m top : OrderedMap κ α} {k : κ} {a : α} (hk : m.get? k = some a)
    (htop : top.get? k = none) (g : α → α) :
    (m.overlay top).modify k g = (m.modify k g).overlay top := by
  rw [get?_eq_none_iff] at htop
  have hget : (m.overlay top).get? k = some a := by rw [get?_overlay_of_notMem m top htop, hk]
  rw [modify_of_get? hget, modify_of_get? hk, insert_overlay (mem_keys_of_get? hk) htop]

end OrderedMap

/-! ## Generated names in a document -/

/-- A name moved below another one. -/
def Json.nameBelow (outer : String) : Json → Json
  | .str n => .str (outer ++ "_" ++ n)
  | j => j

/-- The key that holds the generated name in an entry: that of a scale or of a projection, or the
scale that a guide refers to, which a legend does with its first key. -/
def Fields.nameKey : Family → Fields → String
  | .scale, _ | .projection, _ => "name"
  | .axis, _ => "scale"
  | .legend, e => e.keys.head?.getD ""

/-- An entry with its generated name moved below another one. -/
def Fields.nameBelow (outer : String) (f : Family) (e : Fields) : Fields :=
  e.modify (Fields.nameKey f e) (Json.nameBelow outer)

/-- A signal with its name moved below another one. -/
def SignalDef.nameBelow (outer : String) (s : SignalDef) : SignalDef :=
  { s with name := outer ++ "_" ++ s.name }

namespace ViewTree

open View Component

variable {config : Config} {settings : Settings} {t : ViewTree}

/-- The properties with which a component would set a generated name of its entry. -/
def nameKeys (s : Slot) : List String :=
  match s.family with
  | .projection => []
  | .scale => ["name"]
  | .axis | .legend => ["scale", Slot.referenceKey s]

/-- No scale that is written sets its name, and no guide its reference. -/
def GeneratedNames (t : ViewTree) : Prop :=
  ∀ l ∈ t.walk [], ∀ e ∈ l.tree.label.components.entries, e.2.merged = false →
    ∀ key ∈ nameKeys e.1, e.2.explicit.get? key = none

instance (t : ViewTree) : Decidable t.GeneratedNames :=
  inferInstanceAs (Decidable (∀ l ∈ t.walk [], _))

/-- The explicit layer of a component is that of a unit's. -/
theorem IsResolved.exists_unit_explicit (h : IsResolved config settings t) {s : Slot} :
    ∀ l ∈ t.walk [], ∀ k, l.tree.label.components.get? s = some k →
      ∃ m ∈ t.walk [], ∃ u, m.tree.label.form = .unit u ∧
        k.explicit = explicitFields config s.family (u.given s) := by
  apply Tree.forall_walk_up
  intro l hl ih k hk
  by_cases hform : ∃ u, l.tree.label.form = .unit u
  · obtain ⟨u, hu⟩ := hform
    exact ⟨l, hl, u, hu, (h.settled l hl).explicit_unit hu hk⟩
  · obtain ⟨w, hw, j, hj, hexplicit, -⟩ := h.exists_representative hl (not_exists.1 hform) hk
    rw [hexplicit]
    exact ih w hw j hj

theorem nameKeys_guide {s : Slot} (hguide : s.family.isGuide = true) :
    nameKeys s = ["scale", Slot.referenceKey s] := by
  obtain ⟨f, c⟩ := s
  cases f <;> first | rfl | cases hguide

theorem nameKey_guide {s : Slot} (hguide : s.family.isGuide = true) (x : Json)
    (rest : List (String × Json)) (top : Fields) :
    Fields.nameKey s.family ((OrderedMap.mk ((Slot.referenceKey s, x) :: rest)).overlay top) =
      Slot.referenceKey s := by
  obtain ⟨f, c⟩ := s
  cases f with
  | axis => rfl
  | legend =>
    obtain ⟨others, hkeys⟩ := OrderedMap.keys_prefix_overlay
      (OrderedMap.mk ((Slot.referenceKey ⟨.legend, c⟩, x) :: rest)) top
    simp only [Fields.nameKey, ← hkeys]
    rfl
  | scale => cases hguide
  | projection => cases hguide

/-! ## Entries with generated names -/

/-- Where names are generated, every scale and every guide is written with one. -/
theorem GeneratedNames.exists_name (hnames : t.GeneratedNames) (h : IsResolved config settings t)
    {r : Registry} {d : Document} (hd : t.Compiled r d) {f : Family} (hf : f ≠ .projection)
    {e : Fields} (he : e ∈ d.entries f) : ∃ n, e.get? (Fields.nameKey f e) = some (.str n) := by
  obtain ⟨l, hl, c, k, hk, hlive, hentry⟩ := (hd.mem_entries h).1 he
  have hnone := hnames l hl (⟨f, c⟩, k) (OrderedMap.mem_entries_of_get? hk) hlive
  by_cases hguide : f.isGuide = true
  · have hkeys : nameKeys ⟨f, c⟩ = ["scale", Slot.referenceKey ⟨f, c⟩] := nameKeys_guide hguide
    rw [hkeys, List.forall_mem_cons, List.forall_mem_singleton] at hnone
    obtain ⟨scale, -, hreference⟩ :=
      (h.settled l hl).reference_of_guide (s := ⟨f, c⟩) hguide hk hentry hnone.1 hnone.2
    rw [entry_guide (s := ⟨f, c⟩) hguide] at hentry
    obtain ⟨x, -, rfl⟩ := map_eq_ok.1 hentry
    rw [nameKey_guide (s := ⟨f, c⟩) hguide]
    exact ⟨_, hreference⟩
  · cases f with
    | scale =>
      obtain rfl := Except.ok.inj hentry
      have hname := (OrderedMap.get?_eq_none_iff _ _).1 (hnone "name" List.mem_cons_self)
      refine ⟨k.name, ?_⟩
      show ((k.implicit.insert "name" (.str k.name)).overlay k.explicit).get? "name" = _
      rw [OrderedMap.get?_overlay_of_notMem _ _ hname, OrderedMap.get?_insert_self]
    | projection => exact absurd rfl hf
    | axis => exact absurd rfl hguide
    | legend => exact absurd rfl hguide

/-- A legend is written with the scale under the target of its channel. -/
theorem Compiled.exists_legendTarget (h : IsResolved config settings t) {r : Registry}
    {d : Document} (hd : t.Compiled r d) {e : Fields} (he : e ∈ d.legends) :
    ∃ c : Channel, Fields.nameKey .legend e = c.legendTarget := by
  obtain ⟨l, hl, c, k, hk, -, hentry⟩ := (hd.mem_entries h (f := .legend)).1 he
  obtain ⟨c, rfl⟩ := Option.ne_none_iff_exists'.1
    (channel_ne_none _ ((h.settled l hl).mem_sharingOrder hk) nofun)
  rw [entry_guide (s := ⟨.legend, some c⟩) rfl] at hentry
  obtain ⟨x, -, rfl⟩ := map_eq_ok.1 hentry
  exact ⟨c, nameKey_guide (s := ⟨.legend, some c⟩) rfl _ _ _⟩

end ViewTree

end ChartLowering
