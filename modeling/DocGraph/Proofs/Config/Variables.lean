import DocGraph.Config.Override
import DocGraph.Proofs.Text.Pieces

/-!
# Variables that override settings

The name of a variable tells the section up to the first underscore behind the marker, and the
setting by all the rest, both in small letters. So a section with an underscore is out of reach, and
two variables override the same setting only if they differ in the case of letters.
-/

namespace DocGraph

namespace Text

variable {a before rest : Text}

/-! ## Small letters -/

theorem meetsCased_append_underscore : meetsCased (a ++ '_' :: before) = meetsCased a := by
  have hstop : inTable caseIgnoredRanges '_' = false := by decide +kernel
  have hcased : inTable casedRanges '_' = false := by decide +kernel
  rw [meetsCased, meetsCased, List.dropWhile_append]
  cases hrest : a.dropWhile (inTable caseIgnoredRanges) with
  | nil => simp [hstop, hcased]
  | cons c rest => simp

/-- Nothing in front of an underscore has an effect on the letters behind it. -/
theorem lowerAfter_append_underscore :
    lowerAfter (a ++ '_' :: before) rest = lowerAfter a rest := by
  induction rest generalizing a with
  | nil => rfl
  | cons c rest ih =>
    have htail := @ih (c :: a)
    rw [List.cons_append] at htail
    rw [lowerAfter, lowerAfter, htail, meetsCased_append_underscore]

/-- The sigma is the only letter that depends on what follows. -/
theorem lowerAfter_append (h : 'Σ' ∉ a) :
    lowerAfter before (a ++ rest) = lowerAfter before a ++ lowerAfter (a.reverse ++ before) rest := by
  induction a generalizing before with
  | nil => rfl
  | cons c a ih =>
    rw [List.mem_cons, not_or] at h
    obtain ⟨hc, ha⟩ := h
    rw [List.cons_append, lowerAfter, lowerAfter, ih ha]
    simp [Ne.symm hc]

end Text

theorem lower_variable (rest : Text) :
    Text.lower (variableMarker ++ rest) = Text.lower variableMarker ++ Text.lower rest := by
  have hsigma : 'Σ' ∉ variableMarker := by decide
  rw [Text.lower, Text.lowerAfter_append hsigma]
  exact congrArg _ (@Text.lowerAfter_append_underscore [] "KCEHCHPARG".toList rest)

namespace Override

variable {name value s k : Text} {change : Override}

/-! ## Names -/

/-- That the name of a variable is the one for a setting in a section. -/
def Names (name s k : Text) : Prop :=
  '_' ∉ s ∧ ∃ rest, name = variableMarker ++ rest ∧ Text.lower rest = s ++ '_' :: k

theorem Names.lower_eq (h : Names name s k) :
    Text.lower name = Text.lower variableMarker ++ s ++ '_' :: k := by
  obtain ⟨-, rest, rfl, hrest⟩ := h
  rw [lower_variable, hrest, List.append_assoc]

theorem Names.startsWith (h : Names name s k) : Text.startsWith variableMarker name = true := by
  obtain ⟨-, rest, rfl, -⟩ := h
  exact Text.startsWith_iff.2 (List.prefix_append _ _)

private theorem pieces_underscore (hs : '_' ∉ s) (k : Text) :
    Text.pieces (· = '_') (s ++ '_' :: k) = s :: Text.pieces (· = '_') k := by
  apply Text.pieces_append_separator
  · intro d hd
    rw [decide_eq_false_iff_not]
    rintro rfl
    exact hs hd
  · rfl

/-- A variable overrides the setting that it is named for, and no other. -/
theorem ofVariable?_eq_some_iff : ofVariable? name value = some change ↔
    change.origin = name ∧ change.value = coerce value ∧
      Names name change.sectionName change.setting := by
  simp only [ofVariable?, Option.bind_eq_bind, Option.bind_eq_some_iff]
  constructor
  · rintro ⟨rest, hafter, h⟩
    split at h
    · next first second more hpieces =>
      cases h
      have hjoined : Text.join ['_'] (Text.pieces (· = '_') (Text.lower rest)) = Text.lower rest :=
        Text.join_pieces '_' (Text.lower rest)
      rw [hpieces, Text.join_cons_cons] at hjoined
      refine ⟨rfl, rfl, ?_, rest, Text.after?_eq_some_iff.1 hafter, ?_⟩
      · intro hmem
        have hfirst := @Text.not_separator_of_mem_pieces _ _ first
          (hpieces ▸ List.mem_cons_self) '_' hmem
        simp at hfirst
      · rw [← hjoined, List.append_assoc]
        rfl
    · cases h
  · obtain ⟨origin, sectionName, setting, coerced⟩ := change
    rintro ⟨rfl, rfl, hs, rest, hname, hrest⟩
    refine ⟨rest, Text.after?_eq_some_iff.2 hname, ?_⟩
    obtain ⟨second, more, hmore⟩ :=
      List.exists_cons_of_ne_nil (Text.pieces_ne_nil (· = '_') setting)
    have hjoined : Text.join ['_'] (Text.pieces (· = '_') setting) = setting :=
      Text.join_pieces '_' setting
    rw [hmore] at hjoined
    simp only [hrest, pieces_underscore hs, hmore, hjoined]
    rfl

theorem mem_all_iff {bindings : List (Text × Text)} : change ∈ all bindings ↔
    ∃ value, (change.origin, value) ∈ bindings ∧ change.value = coerce value ∧
      Names change.origin change.sectionName change.setting := by
  rw [all, List.mem_filterMap]
  constructor
  · rintro ⟨⟨name, value⟩, hmem, hchange⟩
    obtain ⟨rfl, hvalue, hnames⟩ := ofVariable?_eq_some_iff.1 hchange
    exact ⟨value, hmem, hvalue, hnames⟩
  · rintro ⟨value, hmem, hvalue, hnames⟩
    exact ⟨_, hmem, ofVariable?_eq_some_iff.2 ⟨rfl, hvalue, hnames⟩⟩

end Override

end DocGraph
