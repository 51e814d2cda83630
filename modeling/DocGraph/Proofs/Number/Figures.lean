import DocGraph.Number.Binary64

/-!
# Figures

Numbers are written with the ten digits, two signs, a point and a few small letters. Such figures
are their own small letters, they are no margin of a number, and no underscore is among them. So a
text of figures is read character by character, and what an integer is written as is read back.
-/

namespace DocGraph

/-- The characters that numbers are written with. -/
def figures : Text := "0123456789+-.einfa"

variable {t rest : Text} {c : Char} {n : Nat} {i : Int} {flag : Bool}

/-! ## Single figures -/

/-- What holds of each of the figures in turn holds of every figure. -/
theorem forall_figure {p : Char → Bool} (h : figures.all p = true) (hc : c ∈ figures) :
    p c = true :=
  List.all_eq_true.1 h c hc

theorem ne_underscore_of_figure (h : c ∈ figures) : c ≠ '_' := by
  rintro rfl
  revert h
  decide

theorem isNumberMargin_of_figure (h : c ∈ figures) : Text.isNumberMargin c = false := by
  simpa using @forall_figure c (!Text.isNumberMargin ·) (by decide) h

theorem isDigit_iff_code : c.isDigit = true ↔ 48 ≤ c.toNat ∧ c.toNat ≤ 57 := Char.isDigit_iff_toNat

/-- What holds of the ten digits holds of every digit. -/
theorem forall_digit {p : Char → Prop} (h : ∀ n < 10, p (Char.ofNat (48 + n))) (c : Char)
    (hc : c.isDigit = true) : p c := by
  have hcode := isDigit_iff_code.1 hc
  have hthis := h (c.toNat - 48) (by omega)
  rwa [Nat.add_sub_cancel' hcode.1, Char.ofNat_toNat] at hthis

theorem figure_of_digit (h : c.isDigit = true) : c ∈ figures :=
  forall_digit (by decide) c h

theorem digitValue?_of_digit (h : c.isDigit = true) : digitValue? c = some (c.toNat - 48) :=
  forall_digit (p := fun c => digitValue? c = some (c.toNat - 48)) (by decide) c h

theorem asciiDigit?_of_digit (h : c.isDigit = true) : asciiDigit? c = some (c.toNat - 48) :=
  forall_digit (p := fun c => asciiDigit? c = some (c.toNat - 48)) (by decide) c h

theorem isAsciiDigit_of_digit (h : c.isDigit = true) : isAsciiDigit c = true := by
  rw [isAsciiDigit, asciiDigit?_of_digit h]
  rfl

/-! ## Texts of figures -/

namespace Text

theorem lower_of_figures (h : ∀ c ∈ t, c ∈ figures) : lower t = t := by
  have hsmall : ∀ c ∈ figures, c ≠ 'İ' ∧ c ≠ 'Σ' ∧ smallLetter c = c := by
    intro c hc
    simpa using @forall_figure c (fun c => c ≠ 'İ' ∧ c ≠ 'Σ' ∧ smallLetter c = c)
      (by decide +kernel) hc
  suffices hafter : ∀ before, lowerAfter before t = t from hafter []
  induction t with
  | nil => exact fun _ => rfl
  | cons c rest ih =>
    intro before
    obtain ⟨hdotted, hsigma, hletter⟩ := hsmall c (h c List.mem_cons_self)
    rw [lowerAfter, if_neg hdotted, if_neg hsigma, hletter,
      ih (fun d hd => h d (List.mem_cons_of_mem _ hd))]
    rfl

theorem dropWhile_of_forall {p : Char → Bool} (h : ∀ c ∈ t, p c = false) : t.dropWhile p = t := by
  cases t with
  | nil => rfl
  | cons c rest => rw [List.dropWhile_cons, h c List.mem_cons_self]; rfl

theorem trimNumber_of_figures (h : ∀ c ∈ t, c ∈ figures) : trimNumber t = t := by
  have hmargin : ∀ c ∈ t, isNumberMargin c = false := fun c hc => isNumberMargin_of_figure (h c hc)
  rw [trimNumber, dropWhile_of_forall hmargin,
    dropWhile_of_forall fun c hc => hmargin c (List.mem_reverse.1 hc), List.reverse_reverse]

/-! ## Digits -/

theorem digitValues?_of_digits (h : ∀ c ∈ t, c.isDigit = true) (hne : flag = true ∨ t ≠ []) :
    digitValues? flag t = some (t.map fun c => c.toNat - 48) := by
  induction t generalizing flag with
  | nil => simp_all [digitValues?]
  | cons c rest ih =>
    have hc := h c List.mem_cons_self
    rw [digitValues?]
    · rw [digitValue?_of_digit hc, ih (fun d hd => h d (List.mem_cons_of_mem _ hd)) (.inl rfl)]
      rfl
    · rintro rfl
      cases hc

theorem ofDigits_eq_ofDigitChars (t : Text) :
    ofDigits 10 (t.map fun c => c.toNat - 48) = Nat.ofDigitChars 10 t 0 := by
  simp [ofDigits, Nat.ofDigitChars, List.foldl_map, Nat.mul_comm]

end Text

theorem isDigit_of_mem_writeNatural (h : c ∈ writeNatural n) : c.isDigit = true :=
  Nat.isDigit_of_mem_toDigits (by decide) (by decide) h

theorem figure_of_mem_writeInteger (h : c ∈ writeInteger i) : c ∈ figures := by
  unfold writeInteger at h
  split at h
  · rcases List.mem_cons.1 h with rfl | h
    · decide
    · exact figure_of_digit (isDigit_of_mem_writeNatural h)
  · exact figure_of_digit (isDigit_of_mem_writeNatural h)

/-! ## Signs -/

/-- A sign in front is told apart from the digits. -/
theorem splitSign_of_digit (h : c.isDigit = true) : splitSign (c :: rest) = (false, c :: rest) := by
  rw [splitSign]
  · rintro _ ⟨⟩
    cases h
  · rintro _ ⟨⟩
    cases h

theorem splitSign_writeInteger (i : Int) :
    splitSign (writeInteger i) = (decide (i < 0), writeNatural i.natAbs) := by
  rw [writeInteger]
  split
  · next hneg => simp [splitSign, hneg]
  · next hpos =>
    cases hdigits : writeNatural i.natAbs with
    | nil => exact absurd hdigits Nat.toDigits_ne_nil
    | cons c rest =>
      have hc : c.isDigit = true :=
        isDigit_of_mem_writeNatural (hdigits ▸ List.mem_cons_self)
      rw [splitSign_of_digit hc, decide_eq_false hpos]

theorem signed_natAbs (i : Int) : signed (decide (i < 0)) i.natAbs = i := by
  by_cases h : i < 0
  · simp only [signed, h, decide_true, if_true]
    omega
  · simp only [signed, h, decide_false, Bool.false_eq_true, if_false]
    omega

/-! ## Integers -/

theorem digitValues?_eq_none (h : c ∈ t) (hc : digitValue? c = none) (hne : c ≠ '_') :
    Text.digitValues? flag t = none := by
  induction t generalizing flag with
  | nil => cases h
  | cons d rest ih =>
    have hrest : d ≠ c → c ∈ rest := fun hother =>
      (List.mem_cons.1 h).resolve_left (Ne.symm hother)
    rw [Text.digitValues?.eq_def]
    split
    · next heq => cases heq
    · next heq =>
      obtain ⟨rfl, rfl⟩ := List.cons.inj heq
      split
      · exact ih (hrest hne.symm)
      · rfl
    · next heq =>
      obtain ⟨rfl, rfl⟩ := List.cons.inj heq
      by_cases hsame : d = c
      · rw [hsame, hc]
        rfl
      · rw [ih (hrest hsame)]
        cases digitValue? d <;> rfl

/-- There is no point, no exponent and no word in an integer. -/
theorem readInteger?_eq_none (h : ∀ c ∈ t, c ∈ figures)
    (hmark : ∃ c ∈ t, c = '.' ∨ c = 'e' ∨ c = 'n') : readInteger? t = none := by
  obtain ⟨c, hc, hmark⟩ := hmark
  have hother : c ≠ '-' ∧ c ≠ '+' ∧ c ≠ '_' ∧ digitValue? c = none := by
    rcases hmark with rfl | rfl | rfl <;> decide
  obtain ⟨hminus, hplus, hunderscore, hdigit⟩ := hother
  have hbody : c ∈ (splitSign t).2 := by
    unfold splitSign
    split
    · exact (List.mem_cons.1 hc).resolve_left hminus
    · exact (List.mem_cons.1 hc).resolve_left hplus
    · exact hc
  rw [readInteger?, Text.trimNumber_of_figures h]
  simp [digitValues?_eq_none hbody hdigit hunderscore]

/-- What an integer is written as is read back, unless it is too long. -/
theorem readInteger?_writeInteger (i : Int) :
    readInteger? (writeInteger i) =
      if (writeNatural i.natAbs).length ≤ maxDecimalDigits then some i else none := by
  have hvalues : Text.digitValues? false (writeNatural i.natAbs) =
      some ((writeNatural i.natAbs).map fun c => c.toNat - 48) :=
    Text.digitValues?_of_digits (fun c hc => isDigit_of_mem_writeNatural hc)
      (.inr Nat.toDigits_ne_nil)
  have hvalue : Nat.ofDigitChars 10 (writeNatural i.natAbs) 0 = i.natAbs :=
    Nat.ofDigitChars_ten_toDigits
  rw [readInteger?, Text.trimNumber_of_figures fun c hc => figure_of_mem_writeInteger hc,
    splitSign_writeInteger]
  simp [hvalues, Text.ofDigits_eq_ofDigitChars, hvalue, signed_natAbs]

end DocGraph
