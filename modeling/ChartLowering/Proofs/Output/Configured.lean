import ChartLowering.Proofs.Output.Components
import ChartLowering.Proofs.Schema.Accepted

/-
  What users configure is written out.

  Explicit properties go over everything that completes an entry, so the entry of a component shows
  each of them (`get?_entry_of_explicit`). Whatever a unit's component was merged into keeps what it
  says (`IsResolved.keeps_end`), so sharing never changes a configured property.
-/

namespace ChartLowering

/-! ## Entries show explicit properties -/

namespace Component

variable {k : Component} {p : String} {x : Json}

theorem nodup_keys_combine (h : k.WellFormed) : k.combine.keys.Nodup :=
  OrderedMap.nodup_keys_overlay (OrderedMap.nodup_keys_insert h.implicit "name" _) k.explicit

theorem get?_combine_of_explicit (h : k.WellFormed) (hp : k.explicit.get? p = some x) :
    k.combine.get? p = some x :=
  OrderedMap.get?_overlay_of_some h.explicit hp

theorem get?_properties_of_explicit (h : k.WellFormed) (hname : p ≠ "name")
    (hp : k.explicit.get? p = some x) : k.properties.get? p = some x := by
  unfold properties
  rw [OrderedMap.get?_filterKeys, if_pos (by simpa using hname), get?_combine_of_explicit h hp]

end Component

theorem Family.name_notMem_properties (f : Family) : "name" ∉ f.properties := by
  cases f <;> decide

namespace View

variable {r : Registry} {v : View} {above : List View} {s : Slot} {k : Component} {e : Fields}

/-- A projection is completed beneath all its properties but the name. -/
theorem projectionFields_eq (h : projectionFields r v above k = .ok e) :
    ∃ first rest, e = (OrderedMap.mk (("name", .str k.name) :: first :: rest)).overlay
      k.properties := by
  unfold projectionFields at h
  split at h
  · exact ⟨_, _, (Except.ok.inj h).symm⟩
  · split at h
    · cases h
    · simp only at h
      obtain ⟨fit, -, rfl⟩ := map_eq_ok.1 h
      exact ⟨_, _, rfl⟩

/-- An entry shows every compared property that the component sets explicitly. -/
theorem get?_entry_of_explicit (hk : k.WellFormed) (h : v.entry r above s k = .ok e) {p : String}
    {x : Json} (hp : p ∈ s.family.properties) (hx : k.explicit.get? p = some x) :
    e.get? p = some x := by
  obtain ⟨f, c⟩ := s
  have hname : p ≠ "name" := fun he => f.name_notMem_properties (he ▸ hp)
  cases f with
  | scale =>
    obtain rfl := Except.ok.inj h
    exact Component.get?_combine_of_explicit hk hx
  | axis =>
    obtain ⟨scale, -, rfl⟩ := map_eq_ok.1 h
    exact OrderedMap.get?_overlay_of_some hk.explicit hx
  | legend =>
    obtain ⟨scale, -, rfl⟩ := map_eq_ok.1 h
    exact OrderedMap.get?_overlay_of_some hk.explicit hx
  | projection =>
    obtain ⟨first, rest, rfl⟩ := projectionFields_eq h
    exact OrderedMap.get?_overlay_of_some
      (OrderedMap.nodup_keys_filterKeys (Component.nodup_keys_combine hk) _)
      (Component.get?_properties_of_explicit hk hname hx)

end View

namespace ViewTree

open View

variable {config : Config} {settings : Settings} {t : ViewTree}

/-! ## Ends keep what was said -/

/-- The component in which another one ended keeps what that one says. -/
theorem IsResolved.keeps_end (h : IsResolved config settings t) {s : Slot} (a : List Nat) :
    ∀ k, t.componentAt? s a = some k → ∃ b j, t.endOf? s a = some b ∧
      t.componentAt? s b = some j ∧ j.merged = false ∧
        Fields.Keeps s.family.properties j.explicit k.explicit :=
  h.related_end (R := fun j k => Fields.Keeps s.family.properties j.explicit k.explicit)
    (fun k => Fields.Keeps.refl _ k.explicit) Fields.Keeps.trans
    (fun _ hl _ hu _ _ hk hj => h.keeps hl hu hk hj) a

/-- Whether what a component says explicitly is kept where the component ended, and written out:
either it sets no compared property, or the live component sets the same ones to matching values and
its entry shows them. -/
def Survives (t : ViewTree) (r : Registry) (d : Document) (s : Slot) (a : List Nat)
    (given : Fields) : Prop :=
  ∃ b l j e, t.endOf? s a = some b ∧ t.locate? b = some l ∧
    l.tree.label.components.get? s = some j ∧ j.merged = false ∧
    l.tree.label.entry r l.above s j = .ok e ∧ e ∈ d.entries s.family ∧
    ((∀ p ∈ s.family.properties, given.get? p = none) ∨
      ∀ p ∈ s.family.properties, Json.Matches (j.explicit.get? p) (given.get? p) ∧
        ∀ x, j.explicit.get? p = some x → e.get? p = some x)

/-- Explicit properties survive in a tree whose configured properties have distinct keys. -/
theorem IsResolved.survives (h : IsResolved config settings t)
    (hconfig : ∀ f, (config.defaults f).keys.Nodup) {r : Registry} {d : Document}
    (hd : t.Compiled r d) {s : Slot} {a : List Nat} {k : Component}
    (hk : t.componentAt? s a = some k) : t.Survives r d s a k.explicit := by
  obtain ⟨b, j, hb, hj, hlive, hkeeps⟩ := h.keeps_end a k hk
  obtain ⟨l, hl, hj⟩ := componentAt?_eq_some.1 hj
  have hlwalk := Tree.mem_walk_of_locate? hl
  obtain ⟨e, he, hmem⟩ := hd.exists_entry h hlwalk hj hlive
  have hwell := h.wellFormed hconfig l hlwalk s j hj
  refine ⟨b, l, j, e, hb, hl, hj, hlive, he, hmem, hkeeps.imp id ?_⟩
  intro hmatches p hp
  exact ⟨hmatches p hp, fun x hx => get?_entry_of_explicit hwell he hp hx⟩

end ViewTree

/-! ## Accepted specifications -/

namespace TopLevelSpec

open ViewTree

/-- Sharing never changes what a user configured: the explicit layer of every unit's component, made
of what the chart configures and what the unit gives, survives in the live component that it was
merged into and in that one's entry. -/
theorem configured_survives {settings : Settings} {t : TopLevelSpec} {d : Document}
    (ht : t.Accepted) (hd : t.compile settings = .ok d) :
    ∃ r, t.registered settings = .ok r ∧
      ∀ a l u s k, (t.resolved settings).locate? a = some l → l.tree.label.form = .unit u →
        l.tree.label.components.get? s = some k →
          k.explicit = View.explicitFields t.config s.family (u.given s) ∧
            (t.resolved settings).Survives r.link d s a k.explicit := by
  obtain ⟨r, hr, hcompiled⟩ := compiled_of_compile hd
  have h := isResolved_resolved settings t
  refine ⟨r, hr, ?_⟩
  intro a l u s k hl hform hk
  exact ⟨(h.settledAt hl).explicit_unit hform hk,
    h.survives ht.nodup_keys_defaults hcompiled (componentAt?_eq_some.2 ⟨l, hl, hk⟩)⟩

/-- A mark with one quantitative channel on a logarithmic scale. -/
def logUnit (mark : String) : UnitSpec :=
  ⟨⟨mark, .empty⟩, ⟨[(.x, .one ⟨.field "a", some .quantitative, some ⟨[("type", .str "log")]⟩,
    .unset, .unset, .empty⟩)]⟩, none⟩

/-- Points over a line, on one logarithmic scale. -/
def logLayers : TopLevelSpec :=
  let bare : ViewBase := ⟨none, none, none, none⟩
  ⟨.layer ⟨none, some ⟨.name "cars", none⟩, none, none⟩
    [.unit bare (logUnit "point"), .unit bare (logUnit "line")] .silent, .empty, .plain⟩

def logUnitJson (mark : String) : Json :=
  .obj [("mark", .str mark), ("encoding", .obj [("x", .obj [("field", .str "a"),
    ("type", .str "quantitative"), ("scale", .obj [("type", .str "log")])])])]

theorem accepted_logLayers : logLayers.Accepted :=
  ⟨.obj [("data", .obj [("name", .str "cars")]),
    ("layer", .arr [logUnitJson "point", logUnitJson "line"])], by decide +kernel, rfl⟩

/-- What the second layer says of its scale survives in that of the view around both layers. -/
theorem configured_survives_logLayers : ∃ d r k,
    logLayers.Accepted ∧ logLayers.compile .standard = .ok d ∧
      logLayers.registered .standard = .ok r ∧
      (logLayers.resolved .standard).componentAt? ⟨.scale, some .x⟩ [1] = some k ∧
        k.merged = true ∧
          (logLayers.resolved .standard).Survives r.link d ⟨.scale, some .x⟩ [1] k.explicit := by
  have hok : (logLayers.compile .standard).toOption.isSome = true := by decide +kernel
  have hmerged : ((logLayers.resolved .standard).componentAt? ⟨.scale, some .x⟩ [1]).map
      Component.merged = some true := by
    decide +kernel
  have hform : ((logLayers.resolved .standard).locate? [1]).map (fun l => l.tree.label.form) =
      some (.unit (logUnit "line")) := by
    decide +kernel
  cases hd : logLayers.compile .standard with
  | error cause => rw [hd] at hok; cases hok
  | ok d =>
    obtain ⟨r, hr, hsurvives⟩ := configured_survives accepted_logLayers hd
    obtain ⟨k, hk, hkmerged⟩ := Option.map_eq_some_iff.1 hmerged
    obtain ⟨l, hl, hlk⟩ := componentAt?_eq_some.1 hk
    rw [hl] at hform
    exact ⟨d, r, k, accepted_logLayers, rfl, hr, hk, hkmerged,
      (hsurvives [1] l _ _ k hl (Option.some.inj hform) hlk).2⟩

end TopLevelSpec

end ChartLowering
