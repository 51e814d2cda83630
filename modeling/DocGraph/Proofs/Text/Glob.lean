import DocGraph.Text.Glob
import Mathlib.Data.List.Basic

/-!
# What glob patterns match

A pattern matches a text if the text can be cut so that each unit matches its part, so a pattern
that is put together from two matches what is put together from their texts.

A text without a closing bracket is read at the end of a pattern as it is read on its own. It cannot
close a class that the pattern before it opened, and an opening bracket that stood for itself goes
on to do so.
-/

namespace DocGraph

namespace Glob

variable {pattern tail t content after : Text} {first second : Glob} {c : Char}

/-! ## Languages -/

theorem accepts_append : accepts (first ++ second) t = true ↔
    ∃ before after, t = before ++ after ∧ accepts first before = true ∧
      accepts second after = true := by
  induction first generalizing t with
  | nil => simp [accepts_nil]
  | cons part parts ih =>
    rw [List.cons_append]
    by_cases hstar : part = .anyText
    · subst hstar
      simp only [accepts_anyText, someSuffix_iff, ih]
      constructor
      · rintro ⟨skipped, rest, rfl, before, after, rfl, hbefore, hafter⟩
        exact ⟨skipped ++ before, after, (List.append_assoc ..).symm,
          ⟨skipped, before, rfl, hbefore⟩, hafter⟩
      · rintro ⟨_, after, rfl, ⟨skipped, before, rfl, hbefore⟩, hafter⟩
        exact ⟨skipped, before ++ after, List.append_assoc .., before, after, rfl, hbefore, hafter⟩
    · cases t with
      | nil =>
        rw [accepts_part_nil hstar]
        constructor
        · intro h
          cases h
        · rintro ⟨before, after, hsplit, hbefore, -⟩
          rw [(List.append_eq_nil_iff.1 hsplit.symm).1, accepts_part_nil hstar] at hbefore
          cases hbefore
      | cons c t =>
        rw [accepts_part_cons hstar, Bool.and_eq_true, ih]
        constructor
        · rintro ⟨hc, before, after, rfl, hbefore, hafter⟩
          exact ⟨c :: before, after, rfl, by rw [accepts_part_cons hstar, hc, hbefore]; rfl, hafter⟩
        · rintro ⟨before, after, hsplit, hbefore, hafter⟩
          cases before with
          | nil =>
            rw [accepts_part_nil hstar] at hbefore
            cases hbefore
          | cons d before =>
            obtain ⟨rfl, rfl⟩ := List.cons.inj hsplit
            rw [accepts_part_cons hstar, Bool.and_eq_true] at hbefore
            exact ⟨hbefore.1, before, after, rfl, hbefore.2, hafter⟩

theorem accepts_literal (literal t : Text) :
    accepts (literal.map .char) t = true ↔ t = literal := by
  induction literal generalizing t with
  | nil => rw [List.map_nil, accepts_nil, List.isEmpty_iff]
  | cons d literal ih =>
    rw [List.map_cons]
    cases t with
    | nil => simp [accepts_part_nil]
    | cons c t => simp [accepts_part_cons, partAccepts, ih]

/-- A star in front of a literal stands for the texts that end in it. -/
theorem accepts_star_literal (literal t : Text) :
    accepts (.anyText :: literal.map .char) t = true ↔ literal <:+ t := by
  rw [accepts_anyText, someSuffix_iff]
  constructor
  · rintro ⟨before, after, rfl, haccepts⟩
    rw [(accepts_literal literal after).1 haccepts]
    exact List.suffix_append before literal
  · rintro ⟨before, rfl⟩
    exact ⟨before, literal, rfl, (accepts_literal literal literal).2 rfl⟩

/-! ## Classes -/

theorem eq_of_untilClose (h : untilClose t = some (content, after)) :
    t = content ++ ']' :: after := by
  induction t generalizing content after with
  | nil => cases h
  | cons c t ih =>
    unfold untilClose at h
    split at h
    · cases h
    · next heq =>
      cases heq
      cases h
      rfl
    · next heq =>
      cases heq
      obtain ⟨⟨content, after⟩, hrest, hpair⟩ := Option.map_eq_some_iff.1 h
      cases hpair
      rw [ih hrest, List.cons_append]

/-- Signs that cannot close a class are moved into its content. -/
theorem eq_of_map_untilClose {before : Text}
    (h : ((untilClose t).map fun (rest, after) => (before ++ rest, after)) =
      some (content, after)) :
    before ++ t = content ++ ']' :: after := by
  obtain ⟨⟨rest, after⟩, hrest, hpair⟩ := Option.map_eq_some_iff.1 h
  cases hpair
  rw [eq_of_untilClose hrest, List.append_assoc]

theorem eq_of_splitClass (h : splitClass t = some (content, after)) :
    t = content ++ ']' :: after := by
  unfold splitClass at h
  split at h
  · exact @eq_of_map_untilClose _ _ _ ['!', ']'] h
  · exact @eq_of_map_untilClose _ _ _ ['!'] h
  · exact @eq_of_map_untilClose _ _ _ [']'] h
  · exact eq_of_untilClose h

/-- Only a closing bracket closes a class. -/
theorem splitClass_eq_none (h : ']' ∉ t) : splitClass t = none := by
  rw [Option.eq_none_iff_forall_ne_some]
  rintro ⟨content, after⟩ hsplit
  rw [eq_of_splitClass hsplit] at h
  simp at h

theorem untilClose_append (h : ']' ∉ tail) (t : Text) :
    untilClose (t ++ tail) = (untilClose t).map fun found => (found.1, found.2 ++ tail) := by
  induction t with
  | nil =>
    rw [List.nil_append, untilClose, Option.map_none, Option.eq_none_iff_forall_ne_some]
    rintro ⟨content, after⟩ hclose
    rw [eq_of_untilClose hclose] at h
    simp at h
  | cons c t ih =>
    by_cases hc : c = ']'
    · subst hc
      rfl
    · simp [untilClose, ih, Function.comp_def]

/-- Text without a closing bracket adds nothing to a class but to what follows it. -/
theorem splitClass_append (h : ']' ∉ tail) (t : Text) :
    splitClass (t ++ tail) = (splitClass t).map fun found => (found.1, found.2 ++ tail) := by
  fun_cases splitClass t with
  | case1 rest => simp [splitClass, untilClose_append h, Function.comp_def]
  | case2 rest hrest =>
    have hopen : ∀ later, rest ++ tail ≠ ']' :: later := by
      intro later heq
      cases rest with
      | nil =>
        rw [List.nil_append] at heq
        exact h (heq ▸ List.mem_cons_self)
      | cons d rest =>
        obtain ⟨rfl, -⟩ := List.cons.inj heq
        exact hrest rest rfl
    rw [List.cons_append, splitClass]
    · simp [untilClose_append h, Function.comp_def]
    · exact hopen
  | case3 rest => simp [splitClass, untilClose_append h, Function.comp_def]
  | case4 rest hboth hnegated hbracket =>
    cases t with
    | nil => exact splitClass_eq_none h
    | cons d t =>
      rw [← untilClose_append h, List.cons_append, splitClass]
      · rintro later heq
        obtain ⟨rfl, -⟩ := List.cons.inj heq
        exact hnegated t rfl
      · rintro later heq
        obtain ⟨rfl, -⟩ := List.cons.inj heq
        exact hnegated t rfl
      · rintro later heq
        obtain ⟨rfl, -⟩ := List.cons.inj heq
        exact hbracket t rfl

/-! ## Reading patterns -/

/-- A pattern needs no more steps than it has characters. -/
theorem parseSteps_succ {steps : Nat} (h : pattern.length ≤ steps) :
    parseSteps (steps + 1) pattern = parseSteps steps pattern := by
  induction steps generalizing pattern with
  | zero =>
    obtain rfl : pattern = [] := List.length_eq_zero_iff.1 (Nat.le_zero.1 h)
    rfl
  | succ steps ih =>
    cases pattern with
    | nil => rfl
    | cons c rest =>
      have hrest : rest.length ≤ steps := Nat.le_of_succ_le_succ h
      by_cases hstar : c = '*'
      · subst hstar
        rw [parseSteps, parseSteps, ih hrest]
      · by_cases hmark : c = '?'
        · subst hmark
          rw [parseSteps, parseSteps, ih hrest]
        · by_cases hbracket : c = '['
          · subst hbracket
            rw [parseSteps, parseSteps]
            cases hsplit : splitClass rest with
            | none => simp only [ih hrest]
            | some found =>
              obtain ⟨content, after⟩ := found
              have hlength := congrArg List.length (eq_of_splitClass hsplit)
              rw [List.length_append, List.length_cons] at hlength
              have hafter : after.length ≤ steps := by omega
              simp only [ih hafter]
          · rw [parseSteps, parseSteps, ih hrest] <;> simpa

theorem parseSteps_eq_parse {steps : Nat} (h : pattern.length ≤ steps) :
    parseSteps steps pattern = parse pattern := by
  induction h with
  | refl => rfl
  | step h ih => rw [parseSteps_succ h, ih]

@[simp] theorem parse_star (pattern : Text) : parse ('*' :: pattern) = .anyText :: parse pattern :=
  rfl

@[simp] theorem parse_mark (pattern : Text) : parse ('?' :: pattern) = .anyChar :: parse pattern :=
  rfl

/-- A bracket opens a class if a later one closes it. -/
theorem parse_class (h : splitClass pattern = some (content, after)) :
    parse ('[' :: pattern) = readClass content :: parse after := by
  have hlength := congrArg List.length (eq_of_splitClass h)
  rw [List.length_append, List.length_cons] at hlength
  rw [parse, List.length_cons, parseSteps, h]
  have hafter : after.length ≤ pattern.length := by omega
  simp only [parseSteps_eq_parse hafter]

/-- A bracket that is never closed stands for itself. -/
theorem parse_unclosed (h : splitClass pattern = none) :
    parse ('[' :: pattern) = .char '[' :: parse pattern := by
  rw [parse, List.length_cons, parseSteps, h]
  rfl

theorem parse_plain (hstar : c ≠ '*') (hmark : c ≠ '?') (hbracket : c ≠ '[') (pattern : Text) :
    parse (c :: pattern) = .char c :: parse pattern := by
  rw [parse, List.length_cons, parseSteps]
  · rfl
  all_goals simpa

/-- A text without the signs of a pattern stands for itself. -/
theorem parse_literal (h : ∀ c ∈ pattern, c ∉ ['*', '?', '[']) :
    parse pattern = pattern.map .char := by
  induction pattern with
  | nil => rfl
  | cons c pattern ih =>
    obtain ⟨hc, hrest⟩ := List.forall_mem_cons.1 h
    simp only [List.mem_cons, List.not_mem_nil, or_false, not_or] at hc
    rw [parse_plain hc.1 hc.2.1 hc.2.2, ih hrest, List.map_cons]

/-- A text without a closing bracket is read the same behind any pattern. -/
theorem parse_append (h : ']' ∉ tail) (pattern : Text) :
    parse (pattern ++ tail) = parse pattern ++ parse tail := by
  cases pattern with
  | nil => rfl
  | cons c rest =>
    have hrest := parse_append h rest
    rw [List.cons_append]
    by_cases hstar : c = '*'
    · rw [hstar, parse_star, parse_star, hrest, List.cons_append]
    · by_cases hmark : c = '?'
      · rw [hmark, parse_mark, parse_mark, hrest, List.cons_append]
      · by_cases hbracket : c = '['
        · rw [hbracket]
          have hlater := splitClass_append h rest
          cases hsplit : splitClass rest with
          | none =>
            rw [hsplit] at hlater
            rw [parse_unclosed hsplit, parse_unclosed hlater, hrest, List.cons_append]
          | some found =>
            obtain ⟨content, after⟩ := found
            rw [hsplit] at hlater
            have hlength := congrArg List.length (eq_of_splitClass hsplit)
            rw [parse_class hsplit, parse_class hlater, parse_append h after, List.cons_append]
        · rw [parse_plain hstar hmark hbracket, parse_plain hstar hmark hbracket, hrest,
            List.cons_append]
termination_by pattern.length
decreasing_by
  · exact Nat.lt_succ_self _
  · simp only [List.length_append, List.length_cons] at hlength ⊢
    omega

/-- A pattern with a slash and a star behind it matches what has a slash behind a match of the
pattern. -/
theorem accepts_parse_below : (parse (pattern ++ ['/', '*'])).accepts t = true ↔
    ∃ above below, t = above ++ '/' :: below ∧ (parse pattern).accepts above = true := by
  have htail : parse ['/', '*'] = [.char '/', .anyText] := rfl
  rw [parse_append (by decide), htail, accepts_append]
  constructor
  · rintro ⟨above, later, rfl, habove, hlater⟩
    cases later with
    | nil => cases hlater
    | cons c below =>
      rw [accepts_part_cons (by simp), Bool.and_eq_true] at hlater
      obtain rfl : c = '/' := by simpa [partAccepts] using hlater.1
      exact ⟨above, below, rfl, habove⟩
  · rintro ⟨above, below, rfl, habove⟩
    refine ⟨above, '/' :: below, rfl, habove, ?_⟩
    rw [accepts_part_cons (by simp), accepts_anyText, Bool.and_eq_true, someSuffix_iff]
    exact ⟨by decide, below, [], (List.append_nil below).symm, rfl⟩

end Glob

end DocGraph
