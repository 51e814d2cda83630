import DocGraph.Javadoc.Tag
import DocGraph.Proofs.Text.Occurrence
import Mathlib.Data.List.Forall2

/-!
# Dates in content

A date is four, two and two decimal digits with hyphens between them. Content is dated by the first
date that it has in brackets; a date holds no bracket, so none begins inside another.
-/

namespace DocGraph

namespace Tag

open Text (trimStart)

variable {shape t date after others : Text} {c : Char}

/-- Four decimal digits for the year, two for the month and two for the day. -/
def IsDate (date : Text) : Prop :=
  ∃ year month day : Text, date = year ++ '-' :: (month ++ '-' :: day) ∧
    year.length = 4 ∧ month.length = 2 ∧ day.length = 2 ∧
    ∀ c ∈ year ++ month ++ day, isDecimalDigit c = true

/-- A date as it is written in content. -/
def bracketed (date : Text) : Text := '[' :: date ++ [']']

/-- Whether no date stands in brackets in a text. -/
def Dateless (t : Text) : Prop := ∀ date, IsDate date → ¬ bracketed date <:+: t

/-! ## The shape of a date -/

/-- Whether a character is of the kind that a shape asks for. -/
def fits (s c : Char) : Bool := if s = 'd' then isDecimalDigit c else c == s

theorem readShape?_cons {s : Char} {rest : Text} :
    readShape? (s :: shape) (c :: rest) =
      if fits s c then (readShape? shape rest).map fun (read, after) => (c :: read, after)
      else none := rfl

theorem readShape?_eq_some_iff :
    readShape? shape t = some (date, after) ↔
      t = date ++ after ∧ List.Forall₂ (fun s c => fits s c = true) shape date := by
  induction shape generalizing t date with
  | nil =>
    rw [readShape?, List.forall₂_nil_left_iff]
    constructor
    · intro h
      cases h
      exact ⟨rfl, rfl⟩
    · rintro ⟨ht, rfl⟩
      rw [ht]
      rfl
  | cons s shape ih =>
    cases t with
    | nil =>
      constructor
      · intro h
        cases h
      · rintro ⟨ht, hfits⟩
        obtain ⟨rfl, -⟩ := List.append_eq_nil_iff.1 ht.symm
        cases hfits
    | cons c rest =>
      rw [readShape?_cons, List.forall₂_cons_left_iff]
      cases hc : fits s c with
      | true =>
        rw [if_pos rfl, Option.map_eq_some_iff]
        constructor
        · rintro ⟨⟨read, left⟩, hread, h⟩
          cases h
          obtain ⟨rfl, hfits⟩ := ih.1 hread
          exact ⟨rfl, c, read, hc, hfits, rfl⟩
        · rintro ⟨ht, d, read, hd, hfits, rfl⟩
          rw [List.cons_append, List.cons.injEq] at ht
          exact ⟨(read, after), ih.2 ⟨ht.2, hfits⟩, by rw [ht.1]⟩
      | false =>
        rw [if_neg Bool.false_ne_true]
        constructor
        · intro h
          cases h
        · rintro ⟨ht, d, read, hd, hfits, rfl⟩
          rw [List.cons_append, List.cons.injEq] at ht
          rw [← ht.1, hc] at hd
          cases hd

theorem isDate_iff :
    IsDate date ↔ List.Forall₂ (fun s c => fits s c = true) dateShape date := by
  have hshape : dateShape = ['d', 'd', 'd', 'd', '-', 'd', 'd', '-', 'd', 'd'] := rfl
  rw [hshape]
  constructor
  · rintro ⟨year, month, day, rfl, hyear, hmonth, hday, hdigits⟩
    match year, hyear, month, hmonth, day, hday with
    | [_, _, _, _], _, [_, _], _, [_, _], _ => simpa [fits] using hdigits
  · intro h
    simp only [List.forall₂_cons_left_iff, List.forall₂_nil_left_iff] at h
    obtain ⟨y1, -, h1, ⟨y2, -, h2, ⟨y3, -, h3, ⟨y4, -, h4, ⟨c, -, hc, ⟨m1, -, h5, ⟨m2, -, h6,
      ⟨d, -, hd, ⟨d1, -, h7, ⟨d2, -, h8, rfl, rfl⟩, rfl⟩, rfl⟩, rfl⟩, rfl⟩, rfl⟩, rfl⟩, rfl⟩, rfl⟩,
      rfl⟩ := h
    obtain rfl : c = '-' := by simpa [fits] using hc
    obtain rfl : d = '-' := by simpa [fits] using hd
    refine ⟨[y1, y2, y3, y4], [m1, m2], [d1, d2], rfl, rfl, rfl, rfl, ?_⟩
    simpa [fits] using ⟨h1, h2, h3, h4, h5, h6, h7, h8⟩

theorem IsDate.mem (h : IsDate date) (hc : c ∈ date) : isDecimalDigit c = true ∨ c = '-' := by
  obtain ⟨year, month, day, rfl, -, -, -, hdigits⟩ := h
  simp only [List.mem_append, List.mem_cons] at hc hdigits
  rcases hc with hc | rfl | hc | rfl | hc
  · exact .inl (hdigits c (.inl (.inl hc)))
  · exact .inr rfl
  · exact .inl (hdigits c (.inl (.inr hc)))
  · exact .inr rfl
  · exact .inl (hdigits c (.inr hc))

theorem IsDate.notMem (h : IsDate date) (hc : isDecimalDigit c = false) (hhyphen : c ≠ '-') :
    c ∉ date := fun hmem =>
  (h.mem hmem).elim (fun hdigit => Bool.false_ne_true (hc.symm.trans hdigit)) hhyphen

/-- The characters of a date in brackets are digits, hyphens and the brackets. -/
theorem IsDate.notMem_bracketed (h : IsDate date) (hc : isDecimalDigit c = false)
    (hother : c ∉ ['-', '[', ']']) : c ∉ bracketed date := by
  simp only [List.mem_cons, List.not_mem_nil, or_false, not_or] at hother
  have hdate := h.notMem hc hother.1
  simp only [bracketed, List.mem_append, List.mem_cons, List.not_mem_nil, or_false, not_or]
  exact ⟨⟨hother.2.1, hdate⟩, hother.2.2⟩

/-! ## The first date -/

theorem readDate?_eq_some_iff :
    readDate? t = some (date, after) ↔ IsDate date ∧ t = bracketed date ++ after := by
  constructor
  · intro h
    unfold readDate? at h
    split at h
    · split at h
      · next hread =>
        cases h
        obtain ⟨rfl, hfits⟩ := readShape?_eq_some_iff.1 hread
        exact ⟨isDate_iff.2 hfits, by simp [bracketed]⟩
      · cases h
    · cases h
  · rintro ⟨hdate, rfl⟩
    have hread : readShape? dateShape (date ++ ']' :: after) = some (date, ']' :: after) :=
      readShape?_eq_some_iff.2 ⟨rfl, isDate_iff.1 hdate⟩
    simp [bracketed, readDate?, hread]

theorem not_prefix_of_readDate?_none (h : readDate? t = none) (hdate : IsDate date) :
    ¬ bracketed date <+: t := by
  rintro ⟨after, ht⟩
  have hread := readDate?_eq_some_iff.2 ⟨hdate, ht.symm⟩
  rw [h] at hread
  cases hread

/-- A date in brackets begins with the only opening bracket that it has. -/
theorem bracketed_isPrefix_of_cons_append {before : Text} (h : IsDate date)
    (hstart : bracketed date <+: c :: (before ++ '[' :: after)) :
    bracketed date <+: c :: before := by
  obtain ⟨rfl, htail⟩ := List.cons_prefix_cons.1 hstart
  refine List.cons_prefix_cons.2 ⟨rfl, Text.prefix_of_prefix_append_cons (fun hmem => ?_) htail⟩
  rcases List.mem_append.1 hmem with hdate | hclosing
  · exact h.notMem (by decide) (by decide) hdate
  · exact absurd hclosing (by decide)

theorem Dateless.of_isInfix {part : Text} (h : Dateless t) (hpart : part <:+: t) : Dateless part :=
  fun date hdate hoccurs => h date hdate (hoccurs.trans hpart)

theorem dateless_of_notMem (h : '[' ∉ t) : Dateless t :=
  fun _ _ hoccurs => h (hoccurs.subset List.mem_cons_self)

/-- No date begins in a text without an opening bracket. -/
theorem Dateless.append_left {before : Text} (h : Dateless t) (hbefore : '[' ∉ before) :
    Dateless (before ++ t) := fun date hdate hoccurs =>
  h date hdate ((Text.infix_append_left_iff_of_notMem hbefore).1 hoccurs)

/-- No date runs across a character that dates do not have. -/
theorem Dateless.append_cons {before : Text} (hbefore : Dateless before) (hafter : Dateless after)
    (hc : isDecimalDigit c = false) (hother : c ∉ ['-', '[', ']']) :
    Dateless (before ++ c :: after) := by
  intro date hdate hoccurs
  rcases (Text.infix_append_cons_iff (hdate.notMem_bracketed hc hother)).1 hoccurs with h | h
  · exact hbefore date hdate h
  · exact hafter date hdate h

/-- The first date in brackets is taken, with the blanks behind it. -/
theorem takeDate?_append {before : Text} (hdate : IsDate date) (hless : Dateless before)
    (after : Text) :
    takeDate? (before ++ (bracketed date ++ after)) = some (date, before ++ trimStart after) := by
  induction before with
  | nil =>
    have hread : readDate? (bracketed date ++ after) = some (date, after) :=
      readDate?_eq_some_iff.2 ⟨hdate, rfl⟩
    rw [List.nil_append, bracketed, List.cons_append, List.cons_append, takeDate?]
    rw [bracketed, List.cons_append, List.cons_append] at hread
    rw [hread]
    rfl
  | cons c before ih =>
    have hread : readDate? (c :: (before ++ (bracketed date ++ after))) = none := by
      rw [Option.eq_none_iff_forall_not_mem]
      rintro ⟨other, more⟩ hmore
      obtain ⟨hother, ht⟩ := readDate?_eq_some_iff.1 hmore
      have hstart : bracketed other <+: c :: (before ++ '[' :: (date ++ ']' :: after)) :=
        ⟨more, by rw [← ht]; simp [bracketed]⟩
      exact hless other hother (bracketed_isPrefix_of_cons_append hother hstart).isInfix
    rw [List.cons_append, takeDate?, hread,
      ih (hless.of_isInfix (List.suffix_cons c before).isInfix)]
    rfl

theorem takeDate?_eq_some_iff :
    takeDate? t = some (date, others) ↔
      ∃ before after, t = before ++ (bracketed date ++ after) ∧ IsDate date ∧ Dateless before ∧
        others = before ++ trimStart after := by
  constructor
  · intro h
    induction t generalizing others with
    | nil => cases h
    | cons c rest ih =>
      rw [takeDate?] at h
      cases hread : readDate? (c :: rest) with
      | some read =>
        obtain ⟨first, after⟩ := read
        rw [hread] at h
        cases h
        obtain ⟨hdate, ht⟩ := readDate?_eq_some_iff.1 hread
        refine ⟨[], after, ht, hdate, fun other _ hoccurs => ?_, rfl⟩
        exact List.cons_ne_nil _ _ (List.infix_nil.1 hoccurs)
      | none =>
        rw [hread, Option.map_eq_some_iff] at h
        obtain ⟨⟨first, left⟩, hrest, hsome⟩ := h
        cases hsome
        obtain ⟨before, after, rfl, hdate, hless, rfl⟩ := ih hrest
        refine ⟨c :: before, after, rfl, hdate, fun other hother hoccurs => ?_, rfl⟩
        rcases List.infix_cons_iff.1 hoccurs with hstart | hlater
        · exact not_prefix_of_readDate?_none hread hother
            (hstart.trans (List.cons_prefix_cons.2 ⟨rfl, List.prefix_append _ _⟩))
        · exact hless other hother hlater
  · rintro ⟨before, after, rfl, hdate, hless, rfl⟩
    exact takeDate?_append hdate hless after

theorem takeDate?_eq_none_iff : takeDate? t = none ↔ Dateless t := by
  constructor
  · intro hnone date hdate hoccurs
    induction t with
    | nil => exact List.cons_ne_nil _ _ (List.infix_nil.1 hoccurs)
    | cons c rest ih =>
      rw [takeDate?] at hnone
      cases hread : readDate? (c :: rest) with
      | some read =>
        rw [hread] at hnone
        cases hnone
      | none =>
        rw [hread, Option.map_eq_none_iff] at hnone
        rcases List.infix_cons_iff.1 hoccurs with hstart | hlater
        · exact not_prefix_of_readDate?_none hread hdate hstart
        · exact ih hnone hlater
  · intro hless
    rw [Option.eq_none_iff_forall_not_mem]
    rintro ⟨date, others⟩ hsome
    obtain ⟨before, after, rfl, hdate, -⟩ := takeDate?_eq_some_iff.1 hsome
    exact hless date hdate ⟨before, after, by rw [List.append_assoc]⟩

end Tag

end DocGraph
