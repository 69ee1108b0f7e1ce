import ChartLowering.Proofs.Text.Qualified
import ChartLowering.ViewTree.Basic

/-
  Which generated names collide.

  Making an identifier ends at a part (`isPart_identifier`) and leaves every part alone
  (`identifier_eq_self_iff`). In the name of a part of a named owner only the owner's first character
  can be guarded, so the name is the owner's identifier and what the part adds behind an underscore
  (`toList_identifier_join`). Hence two owners share the name of one part exactly if they share their
  identifiers, and then they share the names of all parts (`identifier_collisions`). Owners need not
  be equally long for that: the identifier of `1st` is `_1st`, which is its own identifier.
-/

namespace ChartLowering

namespace Text

/-! ## Identifiers are parts -/

/-- No digit is in front after a guard is put there. -/
theorem head_guardDigit (cs : List Char) :
    ((guardDigit cs).head?.all fun c => !isDecimalDigit c) = true := by
  cases cs with
  | nil => rfl
  | cons c rest =>
    rw [guardDigit]
    split
    · simp [isDecimalDigit_underscore]
    · rename_i hc
      simpa using hc

theorem isPart_identifier (s : String) : IsPart (identifier s) := by
  constructor
  · rw [List.all_eq_true]
    exact fun c hc => isWordChar_of_mem_identifier hc
  · rw [toList_identifier]
    exact head_guardDigit _

/-- Exactly the parts are left as they are. -/
theorem identifier_eq_self_iff {s : String} : identifier s = s ↔ IsPart s := by
  constructor
  · intro h
    rw [← h]
    exact isPart_identifier s
  · intro h
    rw [identifier, identifierChars_of_isPart h, String.ofList_toList]

/-! ## Names of parts -/

variable {m n : String}

/-- The name of a part goes on behind the identifier of its owner. -/
theorem toList_identifier_join (hm : m ≠ "") (part : String) :
    (identifier (m ++ "_" ++ part)).toList =
      (identifier m).toList ++ '_' :: part.toList.map identifierChar := by
  rw [String.append_assoc, toList_identifier, toList_identifier, String.toList_append,
    identifierChars_append (toList_ne_nil hm), String.toList_append, List.map_append]
  show _ ++ identifierChar '_' :: part.toList.map identifierChar = _
  rw [identifierChar_of_word isWordChar_underscore]

/-- Two owners share the name of a part if and only if they share their identifiers. -/
theorem identifier_join_eq_iff (hm : m ≠ "") (hn : n ≠ "") (part : String) :
    identifier (m ++ "_" ++ part) = identifier (n ++ "_" ++ part) ↔ identifier m = identifier n := by
  rw [← String.toList_inj, ← String.toList_inj, toList_identifier_join hm,
    toList_identifier_join hn, List.append_cancel_right_eq]

theorem qualified_named (hm : m ≠ "") (part : String) :
    qualified m part = identifier (m ++ "_" ++ part) := by
  rw [qualified_eq_identifier_join, join_named hm]

/-- Identifiers are made of word characters, no digit opens them, and they are their own identifiers;
no other texts are. Two named owners share the name of one part if and only if they share their
identifiers; so two named views that share the generated name of one part share those of all. -/
theorem identifier_collisions :
    (∀ s, (∀ c ∈ (identifier s).toList, isWordChar c = true) ∧
      (∀ c, (identifier s).toList.head? = some c → isDecimalDigit c = false) ∧
      identifier (identifier s) = identifier s ∧ (identifier s = s ↔ IsPart s)) ∧
    (∀ m n, m ≠ "" → n ≠ "" → ∀ part,
      (identifier (m ++ "_" ++ part) = identifier (n ++ "_" ++ part) ↔
        identifier m = identifier n)) ∧
    ∀ v w : View, v.name ≠ "" → w.name ≠ "" →
      ((∃ part, v.partName part = w.partName part) ↔
        ∀ part, v.partName part = w.partName part) := by
  refine ⟨fun s => ?_, fun m n hm hn => identifier_join_eq_iff hm hn, fun v w hv hw => ?_⟩
  · refine ⟨fun c => isWordChar_of_mem_identifier, fun c hc => ?_,
      identifier_eq_self_iff.2 (isPart_identifier s), identifier_eq_self_iff⟩
    have hhead := (isPart_identifier s).2
    rw [hc] at hhead
    simpa using hhead
  · have hshared : ∀ part, v.partName part = w.partName part ↔
        identifier v.name = identifier w.name := by
      intro part
      unfold View.partName
      rw [qualified_named hv, qualified_named hw]
      exact identifier_join_eq_iff hv hw part
    constructor
    · rintro ⟨part, h⟩ other
      exact (hshared other).2 ((hshared part).1 h)
    · exact fun h => ⟨"", h ""⟩

/-- A layer of nothing with a name. -/
def layerNamed (name : String) : View :=
  ViewTree.viewOf name (.layer .silent) ⟨none, none, none, none⟩ none

/-- Two layers collide through the guard of a digit, and two others do not collide. -/
theorem identifier_collisions_first :
    (layerNamed "1st").name ≠ "" ∧ (layerNamed "_1st").name ≠ "" ∧
      (∀ part, (layerNamed "1st").partName part = (layerNamed "_1st").partName part) ∧
      identifier ("1st" ++ "_" ++ "width") ≠ identifier ("2nd" ++ "_" ++ "width") := by
  obtain ⟨-, hjoin, hviews⟩ := identifier_collisions
  have hfirst : (layerNamed "1st").name ≠ "" := by decide
  have hguarded : (layerNamed "_1st").name ≠ "" := by decide
  refine ⟨hfirst, hguarded, (hviews _ _ hfirst hguarded).1 ⟨"width", by decide +kernel⟩, ?_⟩
  rw [Ne, hjoin "1st" "2nd" (by decide) (by decide)]
  decide +kernel

end Text

end ChartLowering
