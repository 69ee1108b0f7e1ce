import ChartLowering.Proofs.Output.References

/-
  Guides and marks on one scale.

  A guide stands beside a scale of its channel, in every view. Scales and guides are merged apart
  from each other, but where a guide was merged its parent has one, and so a scale beside it, into
  which the child's scale was merged. Each scope on the way up therefore hands the name of the scale
  on to that of the parent's (`lookup_scale_of_guide`), and what a written guide refers to is what the
  marks of all its units are encoded with (`guides_agree`).
-/

namespace ChartLowering

namespace View

/-- Whether the mark of a unit encodes a channel with the scale of some name: the channel has that
scale, what the channel sets goes through it, and this is what the mark is drawn with unless a later
channel sets the same property. -/
structure EncodesWith (v : View) (above : List View) (u : UnitSpec) (c : Channel) (n : String) :
    Prop where
  scale : v.scaleName? above c = some n
  entry : ∃ d, u.channel? c = some d ∧ ∃ entry, entry? (v.scaleName? above c) d = some entry ∧
    entry.scale = some n ∧ ∀ property skip, SetsLast u c d property → c ∉ skip →
      (v.update above u skip).get? property = some entry

end View

namespace ViewTree

open View

variable {config : Config} {settings : Settings} {t : ViewTree}

/-- A channel with a scale has a field or a datum. -/
theorem Settled.isFieldOrDatum_of_scale {l : Located View} (h : Settled config settings l)
    {u : UnitSpec} (hform : l.tree.label.form = .unit u) {c : Channel} {scale : Component}
    (hscale : l.tree.label.components.get? ⟨.scale, some c⟩ = some scale) :
    ∃ d, u.channel? c = some d ∧ d.isFieldOrDatum = true := by
  have hget := get?_asMade_of_some hscale
  rw [h.get?_unit hform (h.mem_sharingOrder hscale)] at hget
  change unitScale? config _ u c = _ at hget
  unfold unitScale? at hget
  split at hget
  · cases hget
  · rename_i d hd
    split at hget
    · rename_i hboth
      exact ⟨d, hd, (Bool.and_eq_true_iff.1 hboth).1⟩
    · cases hget

/-- A unit encodes a channel with the scale of the channel, as seen from the unit. -/
theorem Settled.encodesWith {l : Located View} (h : Settled config settings l) {u : UnitSpec}
    (hform : l.tree.label.form = .unit u) {c : Channel} {scale : Component}
    (hscale : l.tree.label.components.get? ⟨.scale, some c⟩ = some scale) :
    l.tree.label.EncodesWith l.above u c (seenFrom l .scale scale.name) := by
  have hname : l.tree.label.scaleName? l.above c = some (seenFrom l .scale scale.name) := by
    unfold scaleName? component?
    rw [hscale]
    rfl
  obtain ⟨d, hd, hfield⟩ := h.isFieldOrDatum_of_scale hform hscale
  obtain ⟨entry, hentry, hthrough⟩ :=
    exists_entry?_of_isFieldOrDatum hfield (l.tree.label.scaleName? l.above c)
  exact ⟨hname, d, hd, entry, hentry, hthrough.trans hname, fun _ _ hlast hskip =>
    get?_update_of_setsLast hlast hskip hentry⟩

namespace IsResolved

variable (h : IsResolved config settings t)

include h

/-- The scale beside a guide is called from there what the scale beside the guide in which it ended
is called from its place. -/
theorem lookup_scale_of_guide {s : Slot} (hguide : s.family.isGuide = true) (a : List Nat) :
    ∀ l k b m, t.locate? a = some l → l.tree.label.components.get? s = some k →
      t.endOf? s a = some b → t.locate? b = some m →
        ∃ scale target, l.tree.label.components.get? ⟨.scale, s.channel⟩ = some scale ∧
          m.tree.label.components.get? ⟨.scale, s.channel⟩ = some target ∧
            seenFrom l .scale scale.name = seenFrom m .scale target.name := by
  -- a guide that was not merged is its own end
  have hself : ∀ a l k b m, t.locate? a = some l → l.tree.label.components.get? s = some k →
      k.merged = false → t.endOf? s a = some b → t.locate? b = some m →
        ∃ scale target, l.tree.label.components.get? ⟨.scale, s.channel⟩ = some scale ∧
          m.tree.label.components.get? ⟨.scale, s.channel⟩ = some target ∧
            seenFrom l .scale scale.name = seenFrom m .scale target.name := by
    intro a l k b m hl hk hlive hb hm
    rw [endOf?_of_live (componentAt?_eq_some.2 ⟨l, hl, hk⟩) hlive, Option.some.injEq] at hb
    obtain rfl := hb
    obtain rfl := Option.some.inj (hl.symm.trans hm)
    obtain ⟨scale, hscale, -⟩ := (h.settledAt hl).guide_scale hguide hk
    exact ⟨scale, scale, hscale, hscale, rfl⟩
  induction a with
  | nil =>
    intro l k b m hl hk hb hm
    exact hself [] l k b m hl hk (h.live_root (componentAt?_eq_some.2 ⟨l, hl, hk⟩)) hb hm
  | cons i a ih =>
    intro l k b m hl hk hb hm
    have hat := componentAt?_eq_some.2 ⟨l, hl, hk⟩
    cases hmerged : k.merged with
    | false => exact hself (i :: a) l k b m hl hk hmerged hb hm
    | true =>
      rw [endOf?_of_merged hat hmerged] at hb
      obtain ⟨p, hp, -, hpl⟩ := locate?_parent hl
      obtain ⟨g, hg⟩ := Option.isSome_iff_exists.1 ((h.merged_iff hat).1 hmerged)
      rw [componentAt?_of_locate? hp] at hg
      obtain ⟨outer, target, houter, htarget, hseen⟩ := ih p g b m hp hg hb hm
      obtain ⟨scale, hscale, -⟩ := (h.settledAt hl).guide_scale hguide hk
      -- the parent has a scale too, so the scale beside a merged guide is merged
      have hscaleMerged : scale.merged = true := by
        refine (h.merged_iff (componentAt?_eq_some.2 ⟨l, hl, hscale⟩)).2 ?_
        rw [componentAt?_of_locate? hp, houter]
        rfl
      obtain ⟨j, hj, hassigned⟩ :=
        h.assigned_of_merged (s := ⟨.scale, s.channel⟩) rfl hl hscale hscaleMerged
      rw [componentAt?_of_locate? hp] at hj
      obtain rfl := Option.some.inj (houter.symm.trans hj)
      refine ⟨scale, target, hscale, htarget, ?_⟩
      rw [hpl, seenFrom_child, hassigned]
      exact hseen

end IsResolved

end ViewTree

namespace TopLevelSpec

open ViewTree

/-- Guides and scales are shared in step. Every view with a guide of a channel has a scale of the
channel. A live guide that sets neither a scale nor its reference is written with the name that each
unit whose guide it is encodes the channel with, which is what the unit's own scale of the channel is
called from the unit. -/
theorem guides_agree (settings : Settings) (t : TopLevelSpec) :
    (∀ l ∈ (t.resolved settings).walk [], ∀ f c k, f.isGuide = true →
      l.tree.label.component? f (some c) = some k →
        ∃ scale, l.tree.label.component? .scale (some c) = some scale) ∧
    ∀ a b l m u f c g, (t.resolved settings).locate? a = some l → l.tree.label.form = .unit u →
      f.isGuide = true → (t.resolved settings).endOf? ⟨f, some c⟩ a = some b →
        (t.resolved settings).locate? b = some m → m.tree.label.component? f (some c) = some g →
          g.explicit.get? "scale" = none →
          g.explicit.get? (Slot.referenceKey ⟨f, some c⟩) = none →
            ∃ scale n, l.tree.label.component? .scale (some c) = some scale ∧
              l.tree.label.lookup l.above .scale scale.name = n ∧
              l.tree.label.EncodesWith l.above u c n ∧
              ∃ e, (∀ r, m.tree.label.entry r m.above ⟨f, some c⟩ g = .ok e) ∧
                e.get? (Slot.referenceKey ⟨f, some c⟩) = some (.str n) ∧
                ∀ d, t.compile settings = .ok d → e ∈ d.entries f := by
  have h := isResolved_resolved settings t
  refine ⟨?beside, ?agree⟩
  case beside =>
    intro l hl f c k hguide hk
    obtain ⟨scale, hscale, -⟩ := (h.settled l hl).guide_scale (s := ⟨f, some c⟩) hguide hk
    exact ⟨scale, hscale⟩
  case agree =>
    intro a b l m u f c g hl hform hguide hb hm hg hscale hkey
    obtain ⟨j, hj⟩ : ∃ j, l.tree.label.components.get? ⟨f, some c⟩ = some j := by
      rw [← Option.isSome_iff_exists, ← componentAt?_of_locate? hl]
      exact isSome_of_endOf? hb
    have hname : ∀ x, g.explicit.get? "scale" = some x → x.isContainer = false := by
      rw [hscale]
      intro x hx
      cases hx
    obtain ⟨e, he⟩ := (h.settledAt hm).exists_entry_of_guide hguide hg hname
    obtain ⟨own, target, hown, htarget, hseen⟩ := h.lookup_scale_of_guide hguide a l j b m hl hj hb hm
    obtain ⟨target', htarget', hreference⟩ :=
      (h.settledAt hm).reference_of_guide (r := .start .empty false) hguide hg (he _) hscale hkey
    obtain rfl := Option.some.inj (htarget.symm.trans htarget')
    refine ⟨own, seenFrom l .scale own.name, hown, rfl, (h.settledAt hl).encodesWith hform hown, e, he,
      ?_, ?_⟩
    · rw [hseen]
      exact hreference
    · intro d hd
      obtain ⟨r, -, hcompiled⟩ := compiled_of_compile hd
      have hlive := live_of_endOf? hb (componentAt?_eq_some.2 ⟨m, hm, hg⟩)
      obtain ⟨e', he', hmem⟩ := hcompiled.exists_entry h (Tree.mem_walk_of_locate? hm) hg hlive
      obtain rfl := Except.ok.inj ((he r.link).symm.trans he')
      exact hmem

/-- The axis that two layers share is written with the name that the second layer encodes its
position with. -/
theorem guides_agree_logLayers : ∃ l m g e,
    (logLayers.resolved .standard).locate? [1] = some l ∧
      l.tree.label.form = .unit (logUnit "line") ∧
      (logLayers.resolved .standard).endOf? ⟨.axis, some .x⟩ [1] = some [] ∧
      (logLayers.resolved .standard).locate? [] = some m ∧
      m.tree.label.component? .axis (some .x) = some g ∧ g.explicit.get? "scale" = none ∧
      l.tree.label.EncodesWith l.above (logUnit "line") .x "x" ∧
      m.tree.label.entry (.start .empty false) m.above ⟨.axis, some .x⟩ g = .ok e ∧
      e.get? "scale" = some (.str "x") := by
  have hunit : ((logLayers.resolved .standard).locate? [1]).map (fun l =>
      (l.tree.label.form, l.tree.label.scaleName? l.above .x)) =
        some (.unit (logUnit "line"), some "x") := by
    decide +kernel
  have hend : (logLayers.resolved .standard).endOf? ⟨.axis, some .x⟩ [1] = some [] := by
    decide +kernel
  have hguide : ((logLayers.resolved .standard).label.component? .axis (some .x)).map (fun g =>
      g.explicit.get? "scale") = some none := by
    decide +kernel
  obtain ⟨l, hl, hlabel⟩ := Option.map_eq_some_iff.1 hunit
  obtain ⟨hform, hname⟩ := Prod.mk.inj hlabel
  obtain ⟨g, hg, hscale⟩ := Option.map_eq_some_iff.1 hguide
  obtain ⟨scale, n, -, -, hencodes, e, he, hkey, -⟩ :=
    (guides_agree .standard logLayers).2 [1] [] l ⟨logLayers.resolved .standard, []⟩
      (logUnit "line") .axis .x g hl hform rfl hend rfl hg hscale hscale
  obtain rfl := Option.some.inj (hname.symm.trans hencodes.scale)
  exact ⟨l, _, g, e, hl, hform, hend, rfl, hg, hscale, hencodes, he _, hkey⟩

end TopLevelSpec

end ChartLowering
