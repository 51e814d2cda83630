import DocGraph.Text.Blank
import Mathlib.Data.List.Infix
import Mathlib.Data.List.TakeWhile

/-!
# Trimming

Blanks are taken off the ends of a text up to the first character that is not blank. So trimming
does not depend on blanks that are put in front of a text or behind it, and what is trimmed begins
and ends with a character that is not blank.
-/

namespace DocGraph

namespace Text

variable {a b t rest : Text} {c : Char}

/-- Whether no character of a text is of a kind can be computed. -/
theorem forall_mem_of_all {p : Char → Bool} (h : t.all (!p ·) = true) : ∀ c ∈ t, p c = false := by
  simpa using h

theorem allBlank_cons : allBlank (c :: t) = (isBlank c && allBlank t) := rfl

theorem allBlank_append : allBlank (a ++ b) = (allBlank a && allBlank b) := List.all_append

theorem isBlank_of_mem (h : allBlank t = true) (hc : c ∈ t) : isBlank c = true :=
  List.all_eq_true.1 h c hc

theorem notMem_of_allBlank (h : allBlank t = true) (hc : isBlank c = false) : c ∉ t :=
  fun hmem => Bool.false_ne_true (hc.symm.trans (isBlank_of_mem h hmem))

/-! ## The start -/

@[simp] theorem trimStart_nil : trimStart [] = [] := rfl

theorem trimStart_cons_of_blank (h : isBlank c = true) : trimStart (c :: t) = trimStart t :=
  List.dropWhile_cons_of_pos h

theorem trimStart_cons_of_not (h : isBlank c = false) : trimStart (c :: t) = c :: t :=
  List.dropWhile_cons_of_neg (by simp [h])

theorem trimStart_append_of_allBlank (h : allBlank a = true) :
    trimStart (a ++ t) = trimStart t := by
  induction a with
  | nil => rfl
  | cons c a ih =>
    rw [allBlank_cons, Bool.and_eq_true] at h
    rw [List.cons_append, trimStart_cons_of_blank h.1, ih h.2]

theorem trimStart_append_of_not (h : allBlank a = false) :
    trimStart (a ++ t) = trimStart a ++ t := by
  induction a with
  | nil => cases h
  | cons c a ih =>
    cases hc : isBlank c with
    | true =>
      rw [allBlank_cons, hc, Bool.true_and] at h
      rw [List.cons_append, trimStart_cons_of_blank hc, trimStart_cons_of_blank hc, ih h]
    | false => rw [List.cons_append, trimStart_cons_of_not hc, trimStart_cons_of_not hc,
        List.cons_append]

theorem trimStart_append_cons (h : isBlank c = false) :
    trimStart (a ++ c :: t) = trimStart a ++ c :: t := by
  cases ha : allBlank a with
  | true =>
    rw [trimStart_append_of_allBlank ha, trimStart_cons_of_not h, ← List.append_nil a,
      trimStart_append_of_allBlank ha]
    rfl
  | false => exact trimStart_append_of_not ha

theorem trimStart_eq_nil_iff : trimStart t = [] ↔ allBlank t = true := by
  rw [trimStart, List.dropWhile_eq_nil_iff, allBlank, List.all_eq_true]

/-- The blanks at the start of a text, and what remains of it. -/
theorem exists_blanks_trimStart (t : Text) :
    ∃ blanks, allBlank blanks = true ∧ t = blanks ++ trimStart t :=
  ⟨t.takeWhile isBlank, List.all_takeWhile, List.takeWhile_append_dropWhile.symm⟩

/-! ## The end -/

@[simp] theorem trimEnd_nil : trimEnd [] = [] := rfl

theorem trimEnd_cons_of_ne_nil (h : trimEnd t ≠ []) : trimEnd (c :: t) = c :: trimEnd t := by
  rw [trimEnd]
  cases hrest : trimEnd t with
  | nil => exact absurd hrest h
  | cons d more => rfl

theorem trimEnd_cons_of_not (h : isBlank c = false) : trimEnd (c :: t) = c :: trimEnd t := by
  rw [trimEnd]
  cases hrest : trimEnd t with
  | nil => simp [h]
  | cons d more => rfl

theorem trimEnd_of_allBlank (h : allBlank t = true) : trimEnd t = [] := trimEnd_eq_nil_iff.2 h

theorem trimEnd_append_of_allBlank (h : allBlank b = true) : trimEnd (a ++ b) = trimEnd a := by
  induction a with
  | nil => exact trimEnd_of_allBlank h
  | cons c a ih => rw [List.cons_append, trimEnd, trimEnd, ih]

theorem trimEnd_append_of_not (h : allBlank b = false) : trimEnd (a ++ b) = a ++ trimEnd b := by
  have hb : trimEnd b ≠ [] := fun hnil => by
    rw [trimEnd_eq_nil_iff] at hnil
    exact Bool.false_ne_true (h.symm.trans hnil)
  induction a with
  | nil => rfl
  | cons c a ih =>
    have hne : trimEnd (a ++ b) ≠ [] := by
      rw [ih]
      exact List.append_ne_nil_of_right_ne_nil _ hb
    rw [List.cons_append, trimEnd_cons_of_ne_nil hne, ih, List.cons_append]

theorem trimEnd_concat_of_not (h : isBlank c = false) : trimEnd (t ++ [c]) = t ++ [c] := by
  rw [trimEnd_append_of_not (by simp [allBlank, h]), trimEnd_cons_of_not h, trimEnd_nil]

/-- What remains of a text without the blanks at its end, and these blanks. -/
theorem exists_trimEnd_blanks (t : Text) :
    ∃ blanks, allBlank blanks = true ∧ t = trimEnd t ++ blanks := by
  induction t with
  | nil => exact ⟨[], rfl, rfl⟩
  | cons c t ih =>
    obtain ⟨blanks, hblanks, ht⟩ := ih
    by_cases hrest : trimEnd t = []
    · rw [hrest, List.nil_append] at ht
      cases hc : isBlank c with
      | true =>
        refine ⟨c :: t, ?_, ?_⟩
        · rw [allBlank_cons, hc, ht, hblanks]
          rfl
        · rw [trimEnd_of_allBlank (by rw [allBlank_cons, hc, ht, hblanks]; rfl)]
          rfl
      | false =>
        exact ⟨blanks, hblanks, by rw [trimEnd_cons_of_not hc, hrest, ← ht]; rfl⟩
    · exact ⟨blanks, hblanks, by rw [trimEnd_cons_of_ne_nil hrest, List.cons_append, ← ht]⟩

/-! ## Both ends -/

theorem trim_append_of_allBlank (h : allBlank a = true) : trim (a ++ t) = trim t := by
  rw [trim, trimStart_append_of_allBlank h, trim]

theorem trim_append_allBlank (h : allBlank b = true) : trim (t ++ b) = trim t := by
  rw [trim, trim]
  cases ht : allBlank t with
  | true =>
    rw [trimStart_append_of_allBlank ht, trimStart_eq_nil_iff.2 h, trimStart_eq_nil_iff.2 ht]
  | false => rw [trimStart_append_of_not ht, trimEnd_append_of_allBlank h]

theorem trim_of_allBlank (h : allBlank t = true) : trim t = [] := by
  rw [trim, trimStart_eq_nil_iff.2 h, trimEnd_nil]

theorem not_allBlank_of_trimmed (h : trim t = t) (hne : t ≠ []) : allBlank t = false := by
  rw [Bool.eq_false_iff]
  intro hblank
  exact hne (h ▸ trim_of_allBlank hblank)

theorem trim_cons_of_blank (h : isBlank c = true) : trim (c :: t) = trim t :=
  trim_append_of_allBlank (a := [c]) (by simp [allBlank, h])

theorem trim_cons_of_not (h : isBlank c = false) : trim (c :: t) = c :: trimEnd t := by
  rw [trim, trimStart_cons_of_not h, trimEnd_cons_of_not h]

theorem trim_trimStart (t : Text) : trim (trimStart t) = trim t := by
  obtain ⟨blanks, hblanks, ht⟩ := exists_blanks_trimStart t
  conv_rhs => rw [ht]
  rw [trim_append_of_allBlank hblanks]

theorem trim_trimEnd (t : Text) : trim (trimEnd t) = trim t := by
  obtain ⟨blanks, hblanks, ht⟩ := exists_trimEnd_blanks t
  conv_rhs => rw [ht]
  rw [trim_append_allBlank hblanks]

theorem trim_trim (t : Text) : trim (trim t) = trim t :=
  (trim_trimEnd (trimStart t)).trans (trim_trimStart t)

/-- Trimming takes out what is between the blanks. -/
theorem trim_isInfix (t : Text) : trim t <:+: t := by
  obtain ⟨before, -, hstart⟩ := exists_blanks_trimStart t
  obtain ⟨after, -, hend⟩ := exists_trimEnd_blanks (trimStart t)
  exact ⟨before, after, by rw [trim, List.append_assoc, ← hend, ← hstart]⟩

theorem mem_trim (hc : c ∈ t) (hblank : isBlank c = false) : c ∈ trim t := by
  obtain ⟨before, hbefore, hstart⟩ := exists_blanks_trimStart t
  obtain ⟨after, hafter, hend⟩ := exists_trimEnd_blanks (trimStart t)
  rw [hstart, hend] at hc
  rcases List.mem_append.1 hc with hc | hc
  · exact absurd hc (notMem_of_allBlank hbefore hblank)
  · exact (List.mem_append.1 hc).resolve_right (notMem_of_allBlank hafter hblank)

/-- Without blanks there is nothing to trim. -/
theorem trim_eq_self (h : ∀ c ∈ t, isBlank c = false) : trim t = t := by
  have hstart : trimStart t = t := by
    cases t with
    | nil => rfl
    | cons c rest => exact trimStart_cons_of_not (h c List.mem_cons_self)
  rw [trim, hstart]
  clear hstart
  induction t with
  | nil => rfl
  | cons c rest ih =>
    rw [trimEnd_cons_of_not (h c List.mem_cons_self),
      ih fun d hd => h d (List.mem_cons_of_mem _ hd)]

/-- A text that trimming leaves alone has no blank at its ends. -/
theorem trimmed_iff : trim t = t ↔ trimStart t = t ∧ trimEnd t = t := by
  constructor
  · intro h
    obtain ⟨before, -, hstart⟩ := exists_blanks_trimStart t
    obtain ⟨after, -, hend⟩ := exists_trimEnd_blanks (trimStart t)
    -- Nothing is lost at either end, as the whole text is left.
    have hlength : t.length = before.length + ((trim t).length + after.length) := by
      conv_lhs => rw [hstart, List.length_append, hend, List.length_append]
      rw [trim]
    rw [h] at hlength
    have hbefore : before = [] := List.length_eq_zero_iff.1 (by omega)
    have ht : trimStart t = t := by
      rw [hbefore, List.nil_append] at hstart
      exact hstart.symm
    exact ⟨ht, by rwa [trim, ht] at h⟩
  · rintro ⟨hstart, hend⟩
    rw [trim, hstart, hend]

/-- It does not matter which end is trimmed first. -/
theorem trimStart_trimEnd (t : Text) : trimStart (trimEnd t) = trim t := by
  cases ht : allBlank t with
  | true => rw [trimEnd_of_allBlank ht, trim_of_allBlank ht, trimStart_nil]
  | false =>
    obtain ⟨blanks, hblanks, hstart⟩ := exists_blanks_trimStart t
    have hnot : allBlank (trimStart t) = false := by
      rw [hstart, allBlank_append, hblanks, Bool.true_and] at ht
      exact ht
    conv_lhs => rw [hstart]
    rw [trimEnd_append_of_not hnot, trimStart_append_of_allBlank hblanks]
    exact (trimmed_iff.1 (trim_trim t)).1

/-! ## The ends of what is left -/

theorem trimStart_eq_self_iff : trimStart t = t ↔ t.head?.any isBlank = false := by
  rw [trimStart, List.dropWhile_eq_self_iff]
  cases t <;> simp

theorem trimEnd_eq_self_iff : trimEnd t = t ↔ t.getLast?.any isBlank = false := by
  rcases List.eq_nil_or_concat t with rfl | ⟨init, c, rfl⟩
  · simp
  · rw [List.concat_eq_append]
    cases hc : isBlank c with
    | true =>
      refine iff_of_false (fun h => ?_) (by simp [hc])
      rw [trimEnd_append_of_allBlank (by simp [allBlank, hc])] at h
      obtain ⟨blanks, -, hinit⟩ := exists_trimEnd_blanks init
      have hlength := congrArg List.length hinit
      rw [h, List.length_append, List.length_append, List.length_singleton] at hlength
      omega
    | false => simp [trimEnd_concat_of_not hc, hc]

theorem trim_ne_nil (h : allBlank t = false) : trim t ≠ [] := by
  intro hnil
  obtain ⟨blanks, hblanks, ht⟩ := exists_trimEnd_blanks t
  rw [← trimStart_trimEnd, trimStart_eq_nil_iff] at hnil
  have hall := congrArg allBlank ht
  rw [allBlank_append, hnil, hblanks, h] at hall
  cases hall

/-- The first character that is left of a text does not depend on what follows. -/
theorem head?_trim_append (h : allBlank a = false) : (trim (a ++ b)).head? = (trim a).head? := by
  induction a with
  | nil => cases h
  | cons c a ih =>
    cases hc : isBlank c with
    | true =>
      rw [allBlank_cons, hc, Bool.true_and] at h
      rw [List.cons_append, trim_cons_of_blank hc, trim_cons_of_blank hc, ih h]
    | false =>
      rw [List.cons_append, trim_cons_of_not hc, trim_cons_of_not hc]
      rfl

theorem getLast?_trimEnd (h : allBlank t = false) : (trimEnd t).getLast? = (trim t).getLast? := by
  obtain ⟨blanks, -, hstart⟩ := exists_blanks_trimStart (trimEnd t)
  rw [trimStart_trimEnd] at hstart
  rw [hstart, List.getLast?_append_of_ne_nil _ (trim_ne_nil h)]

/-- The last character that is left of a text does not depend on what stands before. -/
theorem getLast?_trim_append (h : allBlank b = false) :
    (trim (a ++ b)).getLast? = (trim b).getLast? := by
  have hwhole : allBlank (a ++ b) = false := by rw [allBlank_append, h, Bool.and_false]
  have hne : trimEnd b ≠ [] := by
    rw [Ne, trimEnd_eq_nil_iff]
    exact Bool.eq_false_iff.1 h
  rw [← getLast?_trimEnd hwhole, ← getLast?_trimEnd h, trimEnd_append_of_not h,
    List.getLast?_append_of_ne_nil _ hne]

end Text

end DocGraph
