import DocGraph.Proofs.Number.Figures
import DocGraph.Proofs.Number.Shortest
import Mathlib.Data.List.TakeWhile

/-!
# Numbers that are read back

However a number in double precision is laid out, its text is read as the digits that the layout was
made of, at the power of ten of the last one. As these are rounded to the number, what it is written
as is read back as the same number.
-/

namespace DocGraph.Binary64

variable {t whole fraction tail digits body : Text} {c : Char} {n m : Nat} {e exponent : Int}
  {negative flag : Bool} {x : Binary64}

/-- That a text holds digits only. -/
def AllDigits (t : Text) : Prop := ∀ c ∈ t, c.isDigit = true

theorem allDigits_append_iff : AllDigits (t ++ tail) ↔ AllDigits t ∧ AllDigits tail :=
  List.forall_mem_append

theorem allDigits_zeros (n : Nat) : AllDigits (List.replicate n '0') := by
  intro c hc
  rw [List.eq_of_mem_replicate hc]
  rfl

theorem allDigits_writeNatural (n : Nat) : AllDigits (writeNatural n) :=
  fun _ hc => isDigit_of_mem_writeNatural hc

theorem AllDigits.figures (h : AllDigits t) : ∀ c ∈ t, c ∈ DocGraph.figures :=
  fun c hc => figure_of_digit (h c hc)

/-! ## Values of digits -/

theorem digitsValue_eq (h : AllDigits t) : digitsValue t = Nat.ofDigitChars 10 t 0 := by
  have hvalues : t.filterMap asciiDigit? = t.map fun c => c.toNat - 48 := by
    rw [← List.filterMap_eq_map]
    exact List.filterMap_congr fun c hc => asciiDigit?_of_digit (h c hc)
  rw [digitsValue, hvalues, Text.ofDigits_eq_ofDigitChars]

theorem digitsValue_writeNatural (n : Nat) : digitsValue (writeNatural n) = n := by
  rw [digitsValue_eq (allDigits_writeNatural n)]
  exact Nat.ofDigitChars_ten_toDigits

/-- Zeros in front of digits do not count. -/
theorem digitsValue_zeros_append (h : AllDigits t) (n : Nat) :
    digitsValue (List.replicate n '0' ++ t) = digitsValue t := by
  rw [digitsValue_eq (allDigits_append_iff.2 ⟨allDigits_zeros n, h⟩), digitsValue_eq h,
    Nat.ofDigitChars_append, Nat.ofDigitChars_replicate_zero, Nat.mul_zero]

/-- Zeros behind digits multiply by a power of ten. -/
theorem digitsValue_append_zeros (h : AllDigits t) (n : Nat) :
    digitsValue (t ++ List.replicate n '0') = digitsValue t * 10 ^ n := by
  rw [digitsValue_eq (allDigits_append_iff.2 ⟨h, allDigits_zeros n⟩), digitsValue_eq h,
    Nat.ofDigitChars_append, Nat.ofDigitChars_replicate_zero, Nat.mul_comm]

/-- Zeros behind digits may be told by the power of ten. -/
theorem ofDecimal_append_zeros (h : AllDigits t) (n : Nat) (exponent : Int) :
    ofDecimal negative (digitsValue (t ++ List.replicate n '0')) exponent =
      ofDecimal negative (digitsValue t) (exponent + n) := by
  apply ofDecimal_congr
  rw [digitsValue_append_zeros h, decimalValue, decimalValue, zpow_add₀ (by norm_num), zpow_natCast]
  push_cast
  ring

/-! ## Reading a layout -/

theorem spanDigits_append (h : AllDigits t) (hstop : ∀ c ∈ tail.head?, isAsciiDigit c = false) :
    spanDigits (t ++ tail) = (t, tail) := by
  have hdigit : ∀ c ∈ t, isAsciiDigit c = true := fun c hc => isAsciiDigit_of_digit (h c hc)
  have htail : tail.takeWhile isAsciiDigit = [] ∧ tail.dropWhile isAsciiDigit = tail := by
    cases tail with
    | nil => exact ⟨rfl, rfl⟩
    | cons c rest =>
      have hc : isAsciiDigit c = false := hstop c rfl
      simp [hc]
  rw [spanDigits, List.takeWhile_append_of_pos hdigit, List.dropWhile_append_of_pos hdigit, htail.1,
    htail.2, List.append_nil]

theorem readExponent?_digits (h : AllDigits digits) (hne : digits ≠ []) (negative : Bool) :
    readExponent? ('e' :: (if negative then '-' else '+') :: digits) =
      some (signed negative (digitsValue digits)) := by
  have hall : digits.all isAsciiDigit = true :=
    List.all_eq_true.2 fun c hc => isAsciiDigit_of_digit (h c hc)
  cases negative <;> simp [readExponent?, splitSign, hall, hne]

/-- What an exponent is written as is read back. -/
theorem readExponent?_writeExponent (exponent : Int) :
    readExponent? (writeExponent exponent) = some exponent := by
  have hwritten := allDigits_writeNatural exponent.natAbs
  have hread := readExponent?_digits (allDigits_append_iff.2
    ⟨allDigits_zeros (2 - (writeNatural exponent.natAbs).length), hwritten⟩)
    (List.append_ne_nil_of_right_ne_nil _ Nat.toDigits_ne_nil) (decide (exponent < 0))
  rw [digitsValue_zeros_append hwritten, digitsValue_writeNatural, signed_natAbs] at hread
  simpa [writeExponent] using hread

theorem writeExponent_stops (exponent : Int) :
    ∀ c ∈ (writeExponent exponent).head?, isAsciiDigit c = false := by
  intro c hc
  cases hc
  decide

/-- Digits around a point are read as one number, with an exponent for the point. -/
theorem readUnsigned?_point (hwhole : AllDigits whole) (hne : whole ≠ [])
    (hfraction : AllDigits fraction) (hstop : ∀ c ∈ tail.head?, isAsciiDigit c = false) :
    readUnsigned? negative (whole ++ '.' :: (fraction ++ tail)) =
      (readExponent? tail).map fun exponent =>
        ofDecimal negative (digitsValue (whole ++ fraction)) (exponent - fraction.length) := by
  have hspan := @spanDigits_append whole ('.' :: (fraction ++ tail)) hwhole (by
    intro c hc
    cases hc
    decide)
  simp [readUnsigned?, hspan, spanDigits_append hfraction hstop, hne]

/-- The same without an exponent. -/
theorem readUnsigned?_positional (hwhole : AllDigits whole) (hne : whole ≠ [])
    (hfraction : AllDigits fraction) :
    readUnsigned? negative (whole ++ '.' :: fraction) =
      some (ofDecimal negative (digitsValue (whole ++ fraction)) (-fraction.length)) := by
  have hread := @readUnsigned?_point _ _ [] negative hwhole hne hfraction (by simp)
  rwa [List.append_nil, readExponent?, Option.map_some, zero_sub] at hread

/-- Digits without a point are read as they are. -/
theorem readUnsigned?_whole (hwhole : AllDigits whole) (hne : whole ≠ []) (exponent : Int) :
    readUnsigned? negative (whole ++ writeExponent exponent) =
      some (ofDecimal negative (digitsValue whole) exponent) := by
  have hspan := spanDigits_append hwhole (writeExponent_stops exponent)
  have hread := readExponent?_writeExponent exponent
  obtain ⟨rest, hrest⟩ : ∃ rest, writeExponent exponent = 'e' :: rest := ⟨_, rfl⟩
  rw [hrest] at hspan hread ⊢
  simp [readUnsigned?, hspan, hread, hne]

/-- One digit, the others behind a point and an exponent. -/
theorem readUnsigned?_scientific (h : AllDigits digits) (hne : digits ≠ [])
    (hfar : exponent < -4 ∨ 16 ≤ exponent) :
    readUnsigned? negative (layout digits exponent) =
      some (ofDecimal negative (digitsValue digits) (exponent + 1 - digits.length)) := by
  rw [layout.eq_def, if_pos hfar]
  cases digits with
  | nil => exact absurd rfl hne
  | cons first rest =>
    obtain ⟨hfirst, hrest⟩ := List.forall_mem_cons.1 h
    have hfirst : AllDigits [first] := List.forall_mem_singleton.2 hfirst
    cases rest with
    | nil =>
      rw [List.length_singleton, Nat.cast_one, add_sub_cancel_right]
      exact readUnsigned?_whole hfirst (by simp) exponent
    | cons second rest =>
      have hread := @readUnsigned?_point _ _ _ negative hfirst (by simp) hrest
        (writeExponent_stops exponent)
      have hlength : exponent - ((second :: rest).length : Int) =
          exponent + 1 - ((first :: second :: rest).length : Int) := by
        simp only [List.length_cons]
        omega
      rw [readExponent?_writeExponent, Option.map_some, hlength] at hread
      exact hread

/-- All digits behind the point, with zeros in front of them. -/
theorem readUnsigned?_small (h : AllDigits digits) (hleast : -4 ≤ exponent) (hneg : exponent < 0) :
    readUnsigned? negative (layout digits exponent) =
      some (ofDecimal negative (digitsValue digits) (exponent + 1 - digits.length)) := by
  have hread := @readUnsigned?_positional _ _ negative (allDigits_zeros 1) (by simp)
    (allDigits_append_iff.2 ⟨allDigits_zeros (exponent.natAbs - 1), h⟩)
  have hlength : -((List.replicate (exponent.natAbs - 1) '0' ++ digits).length : Int) =
      exponent + 1 - (digits.length : Int) := by
    rw [List.length_append, List.length_replicate]
    omega
  rw [← List.append_assoc, List.replicate_append_replicate, digitsValue_zeros_append h,
    hlength] at hread
  rw [layout.eq_def, if_neg (by omega), if_pos hneg]
  exact hread

/-- All digits before the point, with zeros behind them. -/
theorem readUnsigned?_round (h : AllDigits digits) (hne : digits ≠ []) (hpos : 0 ≤ exponent)
    (hgreatest : exponent < 16) (hfew : digits.length ≤ exponent.natAbs + 1) :
    readUnsigned? negative (layout digits exponent) =
      some (ofDecimal negative (digitsValue digits) (exponent + 1 - digits.length)) := by
  have hread := @readUnsigned?_positional _ _ negative
    (allDigits_append_iff.2 ⟨h, allDigits_zeros (exponent.natAbs + 1 - digits.length)⟩)
    (List.append_ne_nil_of_left_ne_nil hne _) (allDigits_zeros 1)
  have hzeros : digits ++ List.replicate (exponent.natAbs + 1 - digits.length) '0' ++
      List.replicate 1 '0' =
        digits ++ List.replicate (exponent.natAbs + 1 - digits.length + 1) '0' := by
    rw [List.append_assoc, List.replicate_append_replicate]
  have hexponent : -((List.replicate 1 '0').length : Int) +
      ((exponent.natAbs + 1 - digits.length + 1 : Nat) : Int) =
        exponent + 1 - (digits.length : Int) := by
    rw [List.length_replicate]
    omega
  rw [hzeros, ofDecimal_append_zeros h, hexponent] at hread
  rw [layout.eq_def, if_neg (by omega), if_neg (by omega)]
  simp only [List.take_of_length_le hfew, List.drop_of_length_le hfew]
  exact hread

/-- The point between two digits. -/
theorem readUnsigned?_split (h : AllDigits digits) (hpos : 0 ≤ exponent) (hgreatest : exponent < 16)
    (hmany : exponent.natAbs + 1 < digits.length) :
    readUnsigned? negative (layout digits exponent) =
      some (ofDecimal negative (digitsValue digits) (exponent + 1 - digits.length)) := by
  have hsplit := List.take_append_drop (exponent.natAbs + 1) digits
  obtain ⟨hbefore, hbehind⟩ := allDigits_append_iff.1 (hsplit.symm ▸ h)
  have hne : digits.take (exponent.natAbs + 1) ≠ [] := by
    rw [Ne, List.take_eq_nil_iff]
    rintro (hnone | rfl)
    · cases hnone
    · cases hmany
  have hread := @readUnsigned?_positional _ _ negative hbefore hne hbehind
  have hlength : -((digits.drop (exponent.natAbs + 1)).length : Int) =
      exponent + 1 - (digits.length : Int) := by
    rw [List.length_drop]
    omega
  have hfraction : (digits.drop (exponent.natAbs + 1)).isEmpty = false := by
    rw [List.isEmpty_eq_false_iff, Ne, List.drop_eq_nil_iff]
    omega
  rw [hsplit, hlength] at hread
  rw [layout.eq_def, if_neg (by omega), if_neg (by omega)]
  simp only [Nat.sub_eq_zero_of_le hmany.le, List.replicate_zero, List.append_nil, hfraction]
  exact hread

/-- A layout is read as its digits, at the power of ten of the last one. -/
theorem readUnsigned?_layout (h : AllDigits digits) (hne : digits ≠ []) (exponent : Int) :
    readUnsigned? negative (layout digits exponent) =
      some (ofDecimal negative (digitsValue digits) (exponent + 1 - digits.length)) := by
  by_cases hfar : exponent < -4 ∨ 16 ≤ exponent
  · exact readUnsigned?_scientific h hne hfar
  · rw [not_or, not_lt, not_le] at hfar
    by_cases hneg : exponent < 0
    · exact readUnsigned?_small h hfar.1 hneg
    · by_cases hfew : digits.length ≤ exponent.natAbs + 1
      · exact readUnsigned?_round h hne (not_lt.1 hneg) hfar.2 hfew
      · exact readUnsigned?_split h (not_lt.1 hneg) hfar.2 (not_le.1 hfew)

/-! ## Figures of a layout -/

theorem dropZeros_append (digits : Text) :
    ∃ n, digits = dropZeros digits ++ List.replicate n '0' ∧
      (digits ≠ [] → dropZeros digits ≠ []) := by
  cases digits with
  | nil => exact ⟨0, rfl, fun hne => absurd rfl hne⟩
  | cons first rest =>
    have hsplit := @List.takeWhile_append_dropWhile _ (fun c => decide (c = '0')) rest.reverse
    have hzeros : rest.reverse.takeWhile (fun c => decide (c = '0')) =
        List.replicate (rest.reverse.takeWhile fun c => decide (c = '0')).length '0' :=
      List.eq_replicate_of_mem fun c hc => by simpa using List.mem_takeWhile_imp hc
    refine ⟨(rest.reverse.takeWhile fun c => decide (c = '0')).length, ?_, fun _ => by
      simp [dropZeros]⟩
    rw [← List.reverse_replicate, ← hzeros, dropZeros, List.cons_append, ← List.reverse_append,
      hsplit, List.reverse_reverse]

theorem figure_of_mem_writeExponent (h : c ∈ writeExponent exponent) : c ∈ figures := by
  have hdigits : ∀ c ∈ List.replicate (2 - (writeNatural exponent.natAbs).length) '0' ++
      writeNatural exponent.natAbs, c ∈ figures :=
    (allDigits_append_iff.2 ⟨allDigits_zeros _, allDigits_writeNatural _⟩).figures
  rw [writeExponent, List.append_assoc, List.mem_append] at h
  rcases h with hsign | hdigit
  · rcases List.mem_pair.1 hsign with rfl | rfl
    · decide
    · split <;> decide
  · exact hdigits c hdigit

theorem figures_layout (h : AllDigits digits) (exponent : Int) :
    ∀ c ∈ layout digits exponent, c ∈ figures := by
  have hdot : '.' ∈ figures := by decide
  have hzeros : ∀ n, ∀ c ∈ List.replicate n '0', c ∈ figures := fun n => (allDigits_zeros n).figures
  unfold layout
  split
  · have hexponent : ∀ c ∈ writeExponent exponent, c ∈ figures :=
      fun c hc => figure_of_mem_writeExponent hc
    cases digits with
    | nil => exact List.forall_mem_nil _
    | cons first rest =>
      obtain ⟨hfirst, hrest⟩ := List.forall_mem_cons.1 h.figures
      cases rest with
      | nil => exact List.forall_mem_cons.2 ⟨hfirst, hexponent⟩
      | cons second rest =>
        exact List.forall_mem_append.2
          ⟨List.forall_mem_cons.2 ⟨hfirst, List.forall_mem_cons.2 ⟨hdot, hrest⟩⟩, hexponent⟩
  · split
    · exact List.forall_mem_append.2 ⟨List.forall_mem_cons.2 ⟨hzeros 1 _ (by simp),
        List.forall_mem_cons.2 ⟨hdot, hzeros _⟩⟩, h.figures⟩
    · refine List.forall_mem_append.2 ⟨List.forall_mem_append.2 ⟨fun c hc => ?_, hzeros _⟩,
        List.forall_mem_cons.2 ⟨hdot, ?_⟩⟩
      · exact h.figures c (List.mem_of_mem_take hc)
      · split
        · exact hzeros 1
        · exact fun c hc => h.figures c (List.mem_of_mem_drop hc)

theorem exists_digit_layout (h : AllDigits digits) (hne : digits ≠ []) (exponent : Int) :
    ∃ first rest, layout digits exponent = first :: rest ∧ first.isDigit = true := by
  cases digits with
  | nil => exact absurd rfl hne
  | cons first rest =>
    have hfirst := h first List.mem_cons_self
    unfold layout
    split
    · cases rest with
      | nil => exact ⟨first, _, rfl, hfirst⟩
      | cons second rest => exact ⟨first, _, rfl, hfirst⟩
    · split
      · exact ⟨'0', _, rfl, rfl⟩
      · exact ⟨first, _, rfl, hfirst⟩

theorem mark_mem_layout (hne : digits ≠ []) (exponent : Int) :
    '.' ∈ layout digits exponent ∨ 'e' ∈ layout digits exponent := by
  unfold layout
  split
  · cases digits with
    | nil => exact absurd rfl hne
    | cons first rest =>
      cases rest with
      | nil => exact .inr (by simp [writeExponent])
      | cons second rest => exact .inl (by simp)
  · split <;> exact .inl (by simp)

/-! ## Reading what is written -/

theorem toAsciiDigits_of_figures (h : ∀ c ∈ t, c ∈ figures) : toAsciiDigits t = t := by
  induction t with
  | nil => rfl
  | cons c rest ih =>
    obtain ⟨hc, hrest⟩ := List.forall_mem_cons.1 h
    have hsame : toAsciiDigits [c] = [c] := by
      simpa using @forall_figure c (fun c => toAsciiDigits [c] = [c]) (by decide) hc
    calc toAsciiDigits (c :: rest) = toAsciiDigits [c] ++ toAsciiDigits rest := rfl
      _ = c :: rest := by rw [hsame, ih hrest, List.singleton_append]

theorem dropUnderscores?_of_figures (h : ∀ c ∈ t, c ∈ figures) :
    dropUnderscores? flag t = some t := by
  induction t generalizing flag with
  | nil => rfl
  | cons c rest ih =>
    obtain ⟨hc, hrest⟩ := List.forall_mem_cons.1 h
    have hne := ne_underscore_of_figure hc
    rw [dropUnderscores?, ih hrest]
    · rfl
    · rintro d more rfl
      exact absurd rfl hne
    · rintro rfl
      exact absurd rfl hne

/-- A number that is written with figures is read without its sign, unless it is a word. -/
theorem read?_of_figures (h : ∀ c ∈ t, c ∈ figures) (hsign : splitSign t = (negative, body))
    (hbody : ∀ c ∈ body, c ∈ figures)
    (hdigit : ∃ first rest, body = first :: rest ∧ first.isDigit = true) :
    read? t = readUnsigned? negative body := by
  obtain ⟨first, rest, rfl, hfirst⟩ := hdigit
  have hword : ∀ word : Text, word.head?.map Char.isDigit ≠ some true → first :: rest ≠ word := by
    rintro word hhead rfl
    exact hhead (congrArg some hfirst)
  simp only [read?, Text.trimNumber_of_figures h, toAsciiDigits_of_figures h,
    dropUnderscores?_of_figures h, hsign, Text.lower_of_figures hbody, Option.bind_eq_bind,
    Option.bind_some]
  rw [if_neg, if_neg]
  · exact hword _ (by decide)
  · rintro (hinf | hinf)
    · exact hword _ (by decide) hinf
    · exact hword _ (by decide) hinf

/-- Digits without their zeros at the end are laid out as the number that they stand for. -/
theorem readUnsigned?_layout_dropZeros (n : Nat) (power : Int) :
    readUnsigned? negative
        (layout (dropZeros (writeNatural n)) (power + (writeNatural n).length - 1)) =
      some (ofDecimal negative n power) := by
  obtain ⟨zeros, hzeros, hne⟩ := dropZeros_append (writeNatural n)
  have hdigits : AllDigits (dropZeros (writeNatural n)) :=
    (allDigits_append_iff.1 (hzeros ▸ allDigits_writeNatural n)).1
  have hlength := congrArg List.length hzeros
  rw [List.length_append, List.length_replicate] at hlength
  have hvalue := @ofDecimal_append_zeros _ negative hdigits zeros power
  rw [← hzeros, digitsValue_writeNatural] at hvalue
  rw [readUnsigned?_layout hdigits (hne Nat.toDigits_ne_nil), hvalue]
  congr 2
  omega

/-- The text of the magnitude of a number other than zero. -/
def magnitudeText (m : Nat) (e : Int) : Text :=
  layout (dropZeros (writeNatural (shortestFrom m e (orderOf m e) 17 1).1))
    ((shortestFrom m e (orderOf m e) 17 1).2 +
      (writeNatural (shortestFrom m e (orderOf m e) 17 1).1).length - 1)

theorem write_zero (negative : Bool) (e : Int) :
    write (.finite negative 0 e) = if negative then "-0.0".toList else "0.0".toList := by
  cases negative <;> rfl

/-- The text of a magnitude has a point or an exponent, so it is no integer. -/
theorem mark_mem_magnitudeText (m : Nat) (e : Int) :
    '.' ∈ magnitudeText m e ∨ 'e' ∈ magnitudeText m e := by
  obtain ⟨zeros, -, hne⟩ :=
    dropZeros_append (writeNatural (shortestFrom m e (orderOf m e) 17 1).1)
  rw [magnitudeText]
  exact mark_mem_layout (hne Nat.toDigits_ne_nil) _

theorem figures_magnitudeText (m : Nat) (e : Int) : ∀ c ∈ magnitudeText m e, c ∈ figures := by
  obtain ⟨zeros, hzeros, -⟩ :=
    dropZeros_append (writeNatural (shortestFrom m e (orderOf m e) 17 1).1)
  exact figures_layout (allDigits_append_iff.1 (hzeros ▸ allDigits_writeNatural _)).1 _

theorem exists_digit_magnitudeText (m : Nat) (e : Int) :
    ∃ first rest, magnitudeText m e = first :: rest ∧ first.isDigit = true := by
  obtain ⟨zeros, hzeros, hne⟩ :=
    dropZeros_append (writeNatural (shortestFrom m e (orderOf m e) 17 1).1)
  exact exists_digit_layout (allDigits_append_iff.1 (hzeros ▸ allDigits_writeNatural _)).1
    (hne Nat.toDigits_ne_nil) _

theorem write_finite (hm : m ≠ 0) (negative : Bool) (e : Int) :
    write (.finite negative m e) =
      if negative then '-' :: magnitudeText m e else magnitudeText m e := by
  -- The search is kept out of sight, or what it finds for unknown numbers would be computed.
  rw [magnitudeText]
  delta write
  generalize shortestFrom = search
  with_reducible conv_lhs => whnf
  rewrite [if_neg hm]
  generalize search m e (orderOf m e) 17 1 = found
  obtain ⟨digits, power⟩ := found
  dsimp only

theorem readUnsigned?_magnitudeText (h : Fits m e) (negative : Bool) :
    readUnsigned? negative (magnitudeText m e) = some (.finite negative m e) := by
  rw [magnitudeText, readUnsigned?_layout_dropZeros, ofDecimal_shortest h]

theorem read?_write_finite (h : Fits m e) (negative : Bool) :
    read? (write (.finite negative m e)) = some (.finite negative m e) := by
  rw [write_finite h.pos.ne', ← readUnsigned?_magnitudeText h negative]
  have hfigures := figures_magnitudeText m e
  have hdigit := exists_digit_magnitudeText m e
  generalize magnitudeText m e = body at *
  cases negative with
  | false =>
    obtain ⟨first, rest, rfl, hfirst⟩ := hdigit
    exact read?_of_figures hfigures (splitSign_of_digit hfirst) hfigures ⟨first, rest, rfl, hfirst⟩
  | true =>
    exact read?_of_figures (List.forall_mem_cons.2 ⟨by decide, hfigures⟩) rfl hfigures hdigit

/-- What a number in double precision is written as is read back. -/
theorem read?_write (h : x.IsDouble) : read? x.write = some x := by
  cases x with
  | nan => decide +kernel
  | infinite negative => cases negative <;> decide +kernel
  | finite negative m e =>
    rcases h with ⟨rfl, rfl⟩ | hfits
    · cases negative <;> decide +kernel
    · exact read?_write_finite hfits negative

theorem readUnsigned?_cases (h : readUnsigned? negative t = some x) :
    ∃ digits exponent, ofDecimal negative digits exponent = x := by
  simp only [readUnsigned?] at h
  split at h <;> split at h
  · cases h
  · obtain ⟨exponent, -, hvalue⟩ := Option.map_eq_some_iff.1 h
    exact ⟨_, _, hvalue⟩
  · cases h
  · obtain ⟨exponent, -, hvalue⟩ := Option.map_eq_some_iff.1 h
    exact ⟨_, _, hvalue⟩

/-- What is read is written like a number in double precision. -/
theorem exists_double_of_read? (h : read? t = some x) :
    ∃ y : Binary64, y.IsDouble ∧ y.write = x.write := by
  simp only [read?, Option.bind_eq_bind, Option.bind_eq_some_iff] at h
  obtain ⟨plain, -, h⟩ := h
  split at h
  · cases h
    exact ⟨.infinite _, trivial, rfl⟩
  · split at h
    · cases h
      exact ⟨.nan, trivial, rfl⟩
    · obtain ⟨digits, exponent, hvalue⟩ := readUnsigned?_cases h
      cases x with
      | nan => exact ⟨.nan, trivial, rfl⟩
      | infinite negative => exact ⟨.infinite negative, trivial, rfl⟩
      | finite negative m e =>
        rcases fits_of_ofDecimal hvalue with rfl | hfits
        · exact ⟨.finite negative 0 0, .inl ⟨rfl, rfl⟩, by rw [write_zero, write_zero]⟩
        · exact ⟨.finite negative m e, .inr hfits, rfl⟩

theorem figures_write (x : Binary64) : ∀ c ∈ x.write, c ∈ figures := by
  have hall : ∀ t : Text, t.all figures.elem = true → ∀ c ∈ t, c ∈ figures := fun t ht c hc =>
    List.elem_iff.1 (List.all_eq_true.1 ht c hc)
  cases x with
  | nan => exact hall _ (by decide)
  | infinite negative => cases negative <;> exact hall _ (by decide)
  | finite negative m e =>
    by_cases hm : m = 0
    · rw [hm, write_zero]
      cases negative <;> exact hall _ (by decide)
    · have hfigures := figures_magnitudeText m e
      rw [write_finite hm]
      generalize magnitudeText m e = body at *
      split
      · exact List.forall_mem_cons.2 ⟨by decide, hfigures⟩
      · exact hfigures

/-- A number in double precision is told from an integer by a point, an exponent or a word. -/
theorem exists_mark_write (x : Binary64) : ∃ c ∈ x.write, c = '.' ∨ c = 'e' ∨ c = 'n' := by
  cases x with
  | nan => exact ⟨'n', by decide, .inr (.inr rfl)⟩
  | infinite negative => cases negative <;> exact ⟨'n', by decide, .inr (.inr rfl)⟩
  | finite negative m e =>
    by_cases hm : m = 0
    · rw [hm, write_zero]
      cases negative <;> exact ⟨'.', by decide, .inl rfl⟩
    · have hmark := mark_mem_magnitudeText m e
      rw [write_finite hm]
      generalize magnitudeText m e = body at *
      have hbody : ∃ c ∈ body, c = '.' ∨ c = 'e' ∨ c = 'n' := by
        rcases hmark with hdot | hexponent
        · exact ⟨'.', hdot, .inl rfl⟩
        · exact ⟨'e', hexponent, .inr (.inl rfl)⟩
      obtain ⟨c, hc, hmark⟩ := hbody
      split
      · exact ⟨c, List.mem_cons_of_mem _ hc, hmark⟩
      · exact ⟨c, hc, hmark⟩

end DocGraph.Binary64
