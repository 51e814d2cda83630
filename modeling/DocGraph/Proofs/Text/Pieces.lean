import DocGraph.Proofs.Text.Occurrence

/-!
# Pieces of a text

A text is cut into pieces at its separators. Pieces hold no separator, and parts that hold none are
the pieces of the text that they are joined to.
-/

namespace DocGraph

namespace Text

variable {isSeparator : Char → Bool} {t : Text} {parts : List Text} {c : Char}

theorem pieces_cons_of_separator (h : isSeparator c = true) :
    pieces isSeparator (c :: t) = [] :: pieces isSeparator t := by
  simp [pieces, h]

theorem pieces_cons_of_not {piece : Text} {more : List Text} (h : isSeparator c = false)
    (hpieces : pieces isSeparator t = piece :: more) :
    pieces isSeparator (c :: t) = (c :: piece) :: more := by
  rw [pieces, hpieces, h]
  rfl

/-- Characters that are no separators extend the first piece. -/
theorem pieces_append_of_not {a piece : Text} {more : List Text}
    (h : ∀ d ∈ a, isSeparator d = false) (hpieces : pieces isSeparator t = piece :: more) :
    pieces isSeparator (a ++ t) = (a ++ piece) :: more := by
  induction a with
  | nil => exact hpieces
  | cons d a ih =>
    exact pieces_cons_of_not (h d List.mem_cons_self)
      (ih fun e he => h e (List.mem_cons_of_mem _ he))

theorem pieces_eq_singleton (h : ∀ d ∈ t, isSeparator d = false) : pieces isSeparator t = [t] := by
  induction t with
  | nil => rfl
  | cons d t ih =>
    rw [pieces, ih fun e he => h e (List.mem_cons_of_mem _ he)]
    simp [h d List.mem_cons_self]

/-- A separator cuts a text in two, whatever stands on its sides. -/
theorem pieces_append_cons {a : Text} (hc : isSeparator c = true) :
    pieces isSeparator (a ++ c :: t) = pieces isSeparator a ++ pieces isSeparator t := by
  induction a with
  | nil => exact pieces_cons_of_separator hc
  | cons d a ih =>
    rw [List.cons_append, pieces, pieces, ih]
    by_cases hd : isSeparator d = true
    · simp only [hd, if_true, List.cons_append]
    · obtain ⟨piece, more, hpieces⟩ := List.exists_cons_of_ne_nil (pieces_ne_nil isSeparator a)
      simp only [hd, hpieces, List.cons_append, Bool.false_eq_true, if_false]

theorem pieces_append_separator {piece : Text} (h : ∀ d ∈ piece, isSeparator d = false)
    (hc : isSeparator c = true) :
    pieces isSeparator (piece ++ c :: t) = piece :: pieces isSeparator t := by
  rw [pieces_append_cons hc, pieces_eq_singleton h, List.singleton_append]

/-- The pieces of parts that are joined are the pieces of each part. -/
theorem pieces_join_flatMap (hne : parts ≠ []) :
    pieces (· == c) (join [c] parts) = parts.flatMap (pieces (· == c)) := by
  induction parts with
  | nil => exact absurd rfl hne
  | cons part more ih =>
    cases more with
    | nil => rw [List.flatMap_cons, List.flatMap_nil, List.append_nil, join]
    | cons next more =>
      have hcut := @pieces_append_cons (· == c) (join [c] (next :: more)) c part
        (beq_self_eq_true c)
      rw [join_cons_cons, List.append_assoc, List.singleton_append, hcut,
        ih (List.cons_ne_nil _ _)]
      rfl

/-- Parts that are joined by a separator are read back if none of them holds it. -/
theorem pieces_join (hne : parts ≠ []) (h : ∀ part ∈ parts, ∀ d ∈ part, (d == c) = false) :
    pieces (· == c) (join [c] parts) = parts := by
  rw [pieces_join_flatMap hne,
    List.flatMap_congr fun part hpart => pieces_eq_singleton (h part hpart),
    List.flatMap_singleton']

/-- A text is its pieces joined again. -/
theorem join_pieces (c : Char) (t : Text) : join [c] (pieces (· == c) t) = t := by
  induction t with
  | nil => rfl
  | cons d t ih =>
    obtain ⟨piece, more, hpieces⟩ := List.exists_cons_of_ne_nil (pieces_ne_nil (· == c) t)
    rw [hpieces, join_cons] at ih
    rw [pieces]
    by_cases hd : (d == c) = true
    · rw [if_pos hd, hpieces, join_cons_cons, join_cons, ih, beq_iff_eq.1 hd]
      rfl
    · simp only [hd, hpieces, Bool.false_eq_true, if_false]
      rw [join_cons, List.cons_append, ih]

/-- No piece holds a separator. -/
theorem not_separator_of_mem_pieces {piece : Text} (h : piece ∈ pieces isSeparator t) :
    ∀ c ∈ piece, isSeparator c = false := by
  induction t generalizing piece with
  | nil =>
    rw [pieces, List.mem_singleton] at h
    simp [h]
  | cons d t ih =>
    rw [pieces] at h
    by_cases hd : isSeparator d = true
    · rw [if_pos hd] at h
      rcases List.mem_cons.1 h with rfl | h
      · simp
      · exact ih h
    · rw [if_neg hd] at h
      cases hpieces : pieces isSeparator t with
      | nil => exact absurd hpieces (pieces_ne_nil isSeparator t)
      | cons first more =>
        simp only [hpieces] at h
        rcases List.mem_cons.1 h with rfl | h
        · intro c hc
          rcases List.mem_cons.1 hc with rfl | hc
          · simpa using hd
          · exact ih (by rw [hpieces]; exact List.mem_cons_self) c hc
        · exact ih (by rw [hpieces]; exact List.mem_cons_of_mem _ h)

/-- What is part of the first piece of a text is part of the piece that the separators in front of
the text make. -/
theorem exists_piece_of_append {first part : Text} {more : List Text} (before : Text)
    (hpieces : pieces (· == c) t = first :: more) (h : part <:+: first) :
    ∃ piece, (pieces (· == c) (before ++ t))[before.count c]? = some piece ∧ part <:+: piece := by
  induction before with
  | nil => exact ⟨first, by simp [hpieces], h⟩
  | cons d before ih =>
    obtain ⟨piece, hpiece, hinfix⟩ := ih
    rw [List.cons_append]
    by_cases hd : d = c
    · have hlonger := @pieces_cons_of_separator (· == c) (before ++ t) c (beq_self_eq_true c)
      rw [hd, hlonger, List.count_cons_self]
      exact ⟨piece, hpiece, hinfix⟩
    · obtain ⟨head, tail, hcut⟩ := List.exists_cons_of_ne_nil
        (pieces_ne_nil (· == c) (before ++ t))
      have hlonger := @pieces_cons_of_not (· == c) (before ++ t) d head tail
        (beq_eq_false_iff_ne.2 hd) hcut
      rw [hlonger, List.count_cons_of_ne hd]
      rw [hcut] at hpiece
      cases hcount : before.count c with
      | zero =>
        rw [hcount] at hpiece
        obtain rfl : head = piece := by simpa using hpiece
        exact ⟨d :: head, by simp, hinfix.trans (List.suffix_cons d head).isInfix⟩
      | succ count =>
        rw [hcount] at hpiece
        exact ⟨piece, by simpa using hpiece, hinfix⟩

end Text

end DocGraph
