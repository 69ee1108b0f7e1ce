import ChartLowering.Proofs.Sharing.Fill

/-
  The components of a unit, slot by slot.

  `resolveUnit` fills the slots of a unit with what `unitComponent?` makes for each of them
  (`resolveUnit_eq_fill`). The views above a unit count only by their signal names, which give a
  projection its area (`unitComponent?_of_signals_eq`).
-/

namespace ChartLowering

/-- The properties that a unit gives for a slot. -/
def UnitSpec.given (u : UnitSpec) (s : Slot) : Fields :=
  match s.family, s.channel.bind u.channel? with
  | .projection, _ => u.projection.getD .empty
  | .scale, some d => d.scale.getD .empty
  | .axis, some d => d.axis.fields
  | .legend, some d => d.legend.fields
  | _, none => .empty

namespace View

variable {config : Config} {settings : Settings} {above : List View} {u : UnitSpec}

/-- The component that a unit makes for a slot. -/
def unitComponent? (config : Config) (settings : Settings) (above : List View) (u : UnitSpec)
    (v : View) (s : Slot) : Option Component :=
  match s.family, s.channel with
  | .scale, some c => unitScale? config v u c
  | .axis, some c => unitGuide? config v u .axis c
  | .legend, some c => unitGuide? config v u .legend c
  | .projection, none => unitProjection? config settings above v u
  | _, _ => none

theorem foldl_map_eq_fill (make : View → Slot → Option Component) (f : Family)
    (add : View → Channel → View)
    (h : ∀ v c, add v c = match make v ⟨f, some c⟩ with
      | some k => v.adopt f (some c) k
      | none => v)
    (channels : List Channel) (v : View) :
    channels.foldl add v = fill make (channels.map fun c => ⟨f, some c⟩) v := by
  unfold fill
  rw [List.foldl_map]
  congr 1
  funext v c
  exact h v c

theorem resolveUnit_eq_fill (config : Config) (settings : Settings) (above : List View)
    (u : UnitSpec) (v : View) :
    v.resolveUnit config settings above u =
      fill (unitComponent? config settings above u) sharingOrder v := by
  have horder : sharingOrder =
      Channel.scaled.map (fun c => ⟨.scale, some c⟩) ++
        (Channel.withAxis.map (fun c => ⟨.axis, some c⟩) ++
          (Channel.withLegend.map (fun c => ⟨.legend, some c⟩) ++ [⟨.projection, none⟩])) := rfl
  have hscale := foldl_map_eq_fill (unitComponent? config settings above u) .scale
    (addScale config u) fun v c => rfl
  have haxis := foldl_map_eq_fill (unitComponent? config settings above u) .axis
    (addGuide config u .axis) fun v c => rfl
  have hlegend := foldl_map_eq_fill (unitComponent? config settings above u) .legend
    (addGuide config u .legend) fun v c => rfl
  unfold resolveUnit
  simp only [hscale, haxis, hlegend]
  rw [horder, fill_append, fill_append, fill_append]
  rfl

/-! ## What a unit's component depends on -/

/-- The signal names of views, nearest first. -/
def signalScopes (above : List View) : List NameMap := above.map fun v => v.scope.signals

theorem lookup_signal (v : View) (above : List View) (name : String) :
    v.lookup above .signal name =
      (signalScopes (v :: above)).foldl (fun n m => m.assigned n) name := by
  unfold lookup NameScope.lookup signalScopes
  rw [List.foldl_map, List.foldl_map]
  rfl

theorem sizeSignal_eq {v w : View} {above above' : List View} (h : v.blank = w.blank)
    (habove : signalScopes above = signalScopes above') (d : Dimension) :
    v.sizeSignal above d = w.sizeSignal above' d := by
  have hscopes : signalScopes (v :: above) = signalScopes (w :: above') := by
    unfold signalScopes at habove ⊢
    rw [List.map_cons, List.map_cons, signals_eq_of_blank_eq h, habove]
  unfold sizeSignal
  rw [lookup_signal, lookup_signal, partName_eq_of_blank_eq h, hscopes]

/-- The views above a unit count only by their signal names. -/
theorem unitProjection?_eq {v w : View} {above above' : List View} (h : v.blank = w.blank)
    (habove : signalScopes above = signalScopes above') :
    unitProjection? config settings above v u = unitProjection? config settings above' w u := by
  unfold unitProjection? fitSources
  simp only [sizeSignal_eq h habove, partName_eq_of_blank_eq h, componentName_eq_of_blank_eq h]

theorem unitComponent?_of_signals_eq {above above' : List View}
    (habove : signalScopes above = signalScopes above') :
    unitComponent? config settings above u = unitComponent? config settings above' u := by
  funext v s
  obtain ⟨f, c⟩ := s
  cases f <;> cases c <;> try rfl
  exact unitProjection?_eq rfl habove

theorem isLocal_unitComponent? : IsLocal (unitComponent? config settings above u) := by
  intro v w s h hguide
  have hname := componentName_eq_of_blank_eq h
  obtain ⟨f, c⟩ := s
  cases f with
  | scale =>
    cases c with
    | none => rfl
    | some c =>
      show unitScale? config v u c = unitScale? config w u c
      unfold unitScale?
      rw [hname]
  | axis =>
    cases c with
    | none => rfl
    | some c =>
      show unitGuide? config v u .axis c = unitGuide? config w u .axis c
      unfold unitGuide?
      rw [hname, hguide rfl]
  | legend =>
    cases c with
    | none => rfl
    | some c =>
      show unitGuide? config v u .legend c = unitGuide? config w u .legend c
      unfold unitGuide?
      rw [hname, hguide rfl]
  | projection =>
    cases c with
    | none => exact unitProjection?_eq h rfl
    | some c => rfl

/-! ## What a unit's component is -/

theorem nodup_keys_scaleDefaults (c : Channel) (d : ChannelDef) : (scaleDefaults c d).keys.Nodup := by
  unfold scaleDefaults OrderedMap.keys
  split <;> split <;> simp

theorem nodup_keys_guideDefaults (f : Family) (c : Channel) (scale : String) :
    (guideDefaults f c scale).keys.Nodup := by
  unfold guideDefaults OrderedMap.keys
  split <;> simp

theorem unitGuide?_eq_some {v : View} {f : Family} {c : Channel} {k : Component}
    (h : unitGuide? config v u f c = some k) :
    ∃ (d : ChannelDef) (scale : Component), u.channel? c = some d ∧
      v.component? .scale (some c) = some scale ∧
      k = .define (v.componentName f (some c)) (explicitFields config f (d.guide f).fields)
        (guideDefaults f c scale.name) none none := by
  unfold unitGuide? at h
  split at h
  · rename_i d scale hd hscale
    split at h
    · cases h
    · exact ⟨d, scale, hd, hscale, (Option.some.inj h).symm⟩
  · cases h

/-- A unit's guide refers to the scale of its channel. -/
theorem unitComponent?_guide {v : View} {s : Slot} {k : Component} (hguide : s.family.isGuide = true)
    (h : unitComponent? config settings above u v s = some k) :
    ∃ scale, v.component? .scale s.channel = some scale ∧
      k.implicit.get? "scale" = some (.str scale.name) := by
  obtain ⟨f, c⟩ := s
  cases f with
  | axis =>
    cases c with
    | none => cases h
    | some c =>
      obtain ⟨d, scale, -, hscale, rfl⟩ := unitGuide?_eq_some h
      exact ⟨scale, hscale, rfl⟩
  | legend =>
    cases c with
    | none => cases h
    | some c =>
      obtain ⟨d, scale, -, hscale, rfl⟩ := unitGuide?_eq_some h
      exact ⟨scale, hscale, rfl⟩
  | scale => cases hguide
  | projection => cases hguide

/-- A unit's component is defined under the name of its slot, with the configured properties
beneath those that the unit gives. -/
theorem unitComponent?_eq_define {v : View} {s : Slot} {k : Component}
    (h : unitComponent? config settings above u v s = some k) :
    ∃ implicit size data, implicit.keys.Nodup ∧
      k = .define (v.componentName s.family s.channel) (explicitFields config s.family (u.given s))
        implicit size data := by
  obtain ⟨f, c⟩ := s
  cases f with
  | scale =>
    cases c with
    | none => cases h
    | some c =>
      change unitScale? config v u c = some k at h
      unfold unitScale? at h
      split at h
      · cases h
      · rename_i d hd
        have hgiven : u.given ⟨.scale, some c⟩ = d.scale.getD .empty := by
          simp only [UnitSpec.given, Option.bind_some, hd]
        split at h
        · rw [hgiven]
          exact ⟨_, _, _, nodup_keys_scaleDefaults c d, (Option.some.inj h).symm⟩
        · cases h
  | axis =>
    cases c with
    | none => cases h
    | some c =>
      obtain ⟨d, scale, hd, -, hk⟩ := unitGuide?_eq_some h
      have hgiven : u.given ⟨.axis, some c⟩ = d.axis.fields := by
        simp only [UnitSpec.given, Option.bind_some, hd]
      rw [hgiven]
      exact ⟨_, _, _, nodup_keys_guideDefaults .axis c scale.name, hk⟩
  | legend =>
    cases c with
    | none => cases h
    | some c =>
      obtain ⟨d, scale, hd, -, hk⟩ := unitGuide?_eq_some h
      have hgiven : u.given ⟨.legend, some c⟩ = d.legend.fields := by
        simp only [UnitSpec.given, Option.bind_some, hd]
      rw [hgiven]
      exact ⟨_, _, _, nodup_keys_guideDefaults .legend c scale.name, hk⟩
  | projection =>
    cases c with
    | some c => cases h
    | none =>
      change unitProjection? config settings above v u = some k at h
      unfold unitProjection? at h
      split at h
      · cases h
      · exact ⟨_, _, _, by simp [OrderedMap.keys], (Option.some.inj h).symm⟩

/-- Only a unit's projection can be fit; it is then fit to what the unit gathers and fills the area of
the unit. -/
theorem unitComponent?_fit {v : View} {s : Slot} {k : Component}
    (h : unitComponent? config settings above u v s = some k) :
    (k.data = none ∧ k.size = none) ∨
      (k.data = some (v.fitSources u) ∧
        k.size = some (Dimension.all.map fun d => Json.signalRef (v.sizeSignal above d))) := by
  obtain ⟨f, c⟩ := s
  cases f with
  | scale =>
    cases c with
    | none => cases h
    | some c =>
      change unitScale? config v u c = some k at h
      unfold unitScale? at h
      split at h
      · cases h
      · split at h
        · exact Or.inl (by rw [← Option.some.inj h]; exact ⟨rfl, rfl⟩)
        · cases h
  | axis =>
    cases c with
    | none => cases h
    | some c =>
      obtain ⟨d, scale, -, -, rfl⟩ := unitGuide?_eq_some h
      exact Or.inl ⟨rfl, rfl⟩
  | legend =>
    cases c with
    | none => cases h
    | some c =>
      obtain ⟨d, scale, -, -, rfl⟩ := unitGuide?_eq_some h
      exact Or.inl ⟨rfl, rfl⟩
  | projection =>
    cases c with
    | some c => cases h
    | none =>
      change unitProjection? config settings above v u = some k at h
      unfold unitProjection? at h
      split at h
      · cases h
      · rw [← Option.some.inj h]
        cases hfit : !isPlaced (explicitFields config .projection (u.projection.getD .empty)) with
        | false => exact Or.inl ⟨rfl, rfl⟩
        | true => exact Or.inr ⟨rfl, rfl⟩

/-- A unit that draws on a map has a projection. -/
theorem unitComponent?_projection_of_needed (v : View) (h : u.needsProjection = true) :
    (unitComponent? config settings above u v ⟨.projection, none⟩).isSome = true := by
  show (unitProjection? config settings above v u).isSome = true
  unfold unitProjection?
  rw [h, Bool.not_true, Bool.and_false]
  rfl

end View

end ChartLowering
