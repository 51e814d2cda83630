import DocGraph.Proofs.Graph.Target

/-!
# Separators between targets

A comma separates targets if as many brackets are opened as closed before it, of whatever kinds and
in whatever order. This says of each position in a text, without a walk through it, whether the text
is cut there. A walk that keeps the depth cuts at just these positions: at each of them the depth is
the difference of the two counts for all that stands before.

`separators` lists the positions, and `partsBetween` cuts a text at the positions that it is given.
-/

namespace DocGraph

open Text (trim join)

variable {t : Text} {i : Nat}

/-! ## Counting brackets -/

/-- How many brackets a text opens. -/
def opened (t : Text) : Nat := t.countP (· ∈ ['(', '[', '\x7b'])

/-- How many brackets a text closes. -/
def closed (t : Text) : Nat := t.countP (· ∈ [')', ']', '\x7d'])

theorem opened_cons (c : Char) (t : Text) :
    opened (c :: t) = opened t + if c ∈ ['(', '[', '\x7b'] then 1 else 0 := by
  simp only [opened, List.countP_cons, decide_eq_true_eq]

theorem closed_cons (c : Char) (t : Text) :
    closed (c :: t) = closed t + if c ∈ [')', ']', '\x7d'] then 1 else 0 := by
  simp only [closed, List.countP_cons, decide_eq_true_eq]

theorem netDepth_eq_sub (t : Text) : netDepth t = opened t - closed t := by
  induction t with
  | nil => rfl
  | cons c t ih =>
    have hstep : bracketStep c = ((if c ∈ ['(', '[', '\x7b'] then 1 else 0 : Nat) : Int) -
        (if c ∈ [')', ']', '\x7d'] then 1 else 0 : Nat) := by
      have hboth : ∀ d ∈ ['(', '[', '\x7b'], d ∉ [')', ']', '\x7d'] := by simp
      rw [bracketStep]
      split
      · next hopening =>
        rw [if_neg (hboth c hopening)]
        rfl
      · split <;> rfl
    rw [netDepth_cons, ih, hstep, opened_cons, closed_cons]
    omega

/-! ## Positions -/

/-- Whether a comma stands at a position with as many brackets opened as closed before it. -/
def separatesAt (t : Text) (i : Nat) : Bool :=
  t[i]? == some ',' && opened (t.take i) == closed (t.take i)

/-- The positions at which a text is cut, in ascending order. -/
def separators (t : Text) : List Nat := (List.range t.length).filter (separatesAt t)

/-- The parts of a text from a position on between the further positions that are given. -/
def partsBetween (t : Text) (start : Nat) : List Nat → List Text
  | [] => [t.drop start]
  | cut :: more => (t.take cut).drop start :: partsBetween t (cut + 1) more

theorem separatesAt_iff :
    separatesAt t i = true ↔ t[i]? = some ',' ∧ netDepth (t.take i) = 0 := by
  rw [separatesAt, Bool.and_eq_true, beq_iff_eq, beq_iff_eq, netDepth_eq_sub]
  apply and_congr_right
  intro _
  omega

theorem mem_separators_iff : i ∈ separators t ↔ separatesAt t i = true := by
  rw [separators, List.mem_filter, List.mem_range, and_iff_right_iff_imp]
  intro h
  exact (List.getElem?_eq_some_iff.1 (separatesAt_iff.1 h).1).1

theorem separators_of_uncut (h : Uncut 0 t) : separators t = [] := by
  apply List.eq_nil_iff_forall_not_mem.2
  intro i hi
  obtain ⟨hcomma, hdepth⟩ := separatesAt_iff.1 (mem_separators_iff.1 hi)
  obtain ⟨hlt, hget⟩ := List.getElem?_eq_some_iff.1 hcomma
  have ht : t = t.take i ++ ',' :: t.drop (i + 1) := by
    rw [← hget, List.getElem_cons_drop, List.take_append_drop]
  exact h _ _ ht (by rw [hdepth]; rfl)

theorem separatesAt_append_cons (before rest : Text) (c : Char) :
    separatesAt (before ++ c :: rest) before.length = true ↔ c = ',' ∧ netDepth before = 0 := by
  rw [separatesAt_iff, List.getElem?_append_right (Nat.le_refl _), Nat.sub_self, List.take_left]
  simp

/-! ## Cutting -/

/-- The pieces that a walk finds from a place on stand between the separators that follow there. The
first of them continues what has been passed since the last cut. -/
theorem partsBetween_append {piece : Text} {more : List Text} (before rest : Text) {start : Nat}
    (hstart : start ≤ before.length) (h : targetPieces (netDepth before) rest = piece :: more) :
    partsBetween (before ++ rest) start
        ((List.range' before.length rest.length).filter (separatesAt (before ++ rest))) =
      (before.drop start ++ piece) :: more := by
  induction rest generalizing before start piece more with
  | nil =>
    cases h
    simp [partsBetween]
  | cons c rest ih =>
    have hshift : before ++ c :: rest = before ++ [c] ++ rest := by simp
    have hlength : (before ++ [c]).length = before.length + 1 := by simp
    have hnext : netDepth (before ++ [c]) = netDepth before + bracketStep c := by simp
    rw [List.length_cons, List.range'_succ]
    by_cases hcut : c = ',' ∧ netDepth before = 0
    · rw [List.filter_cons_of_pos ((separatesAt_append_cons before rest c).2 hcut), partsBetween,
        List.take_left]
      rw [targetPieces, if_pos hcut] at h
      obtain ⟨rfl, rfl⟩ := List.cons.inj h
      obtain ⟨first, later, hpieces⟩ :=
        List.exists_cons_of_ne_nil (targetPieces_ne_nil (netDepth before) rest)
      have hsame : netDepth (before ++ [c]) = netDepth before := by
        rw [hnext, hcut.1]
        exact Int.add_zero _
      have hrest := ih (before ++ [c]) (Nat.le_refl _) (by rw [hsame]; exact hpieces)
      rw [← hshift, List.drop_length, List.nil_append, hlength] at hrest
      rw [hrest, hpieces, List.append_nil]
    · rw [List.filter_cons_of_neg fun hpos =>
        hcut ((separatesAt_append_cons before rest c).1 hpos)]
      obtain ⟨first, later, hpieces⟩ := List.exists_cons_of_ne_nil
        (targetPieces_ne_nil (netDepth before + bracketStep c) rest)
      rw [targetPieces_cons (fun hc hdepth => hcut ⟨hc, hdepth⟩) hpieces] at h
      obtain ⟨rfl, rfl⟩ := List.cons.inj h
      have hrest := ih (before ++ [c]) (Nat.le_trans hstart (by omega)) (by rw [hnext]; exact hpieces)
      rw [hlength, ← hshift, List.drop_append_of_le_length hstart, List.append_assoc] at hrest
      exact hrest

theorem targetPieces_eq_partsBetween (t : Text) :
    targetPieces 0 t = partsBetween t 0 (separators t) := by
  obtain ⟨piece, more, hpieces⟩ := List.exists_cons_of_ne_nil (targetPieces_ne_nil 0 t)
  have hparts := partsBetween_append [] t (Nat.le_refl 0) hpieces
  rw [List.nil_append, List.length_nil, ← List.range_eq_range', List.drop_nil,
    List.nil_append] at hparts
  rw [hpieces, separators, hparts]

/-- A text names the targets that stand between its separators, trimmed and without the blank ones.
Joined by commas they are read back, however the brackets of the text match, and no target has a
separator of its own. -/
theorem readTargets_between_separators (t : Text) :
    readTargets t = ((partsBetween t 0 (separators t)).map trim).filter (!·.isEmpty) ∧
      readTargets (join ", ".toList (readTargets t)) = readTargets t ∧
      ∀ target ∈ readTargets t, separators target = [] := by
  refine ⟨?_, readTargets_join (separated_readTargets t) (allSolid_readTargets t), ?_⟩
  · rw [readTargets, targetPieces_eq_partsBetween]
  · intro target htarget
    apply separators_of_uncut
    exact (separated_readTargets t).uncut_of_mem htarget

/-- Before the second comma as many brackets are opened as closed, though they do not match. -/
theorem readTargets_between_separators_of_unmatched :
    separators "a), b ]([,[ ,x".toList = [9] ∧
      readTargets "a), b ]([,[ ,x".toList = ["a), b ]([".toList, "[ ,x".toList] ∧
      separators "a), b ]([".toList = [] := by
  have hseparators : separators "a), b ]([,[ ,x".toList = [9] := by decide +kernel
  obtain ⟨hparts, -, hcuts⟩ := readTargets_between_separators "a), b ]([,[ ,x".toList
  rw [hseparators] at hparts
  have htargets : readTargets "a), b ]([,[ ,x".toList = ["a), b ]([".toList, "[ ,x".toList] := by
    rw [hparts]
    decide +kernel
  refine ⟨hseparators, htargets, hcuts _ ?_⟩
  rw [htargets]
  exact List.mem_cons_self

end DocGraph
