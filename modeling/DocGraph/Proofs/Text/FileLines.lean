import DocGraph.Proofs.Text.Pieces
import DocGraph.Proofs.Text.Utf8

/-!
# Lines of a file

A file is cut into lines by its bytes: LF, CR and the two together end a line. As they are ASCII
bytes, no fault of the encoding changes where a line ends. So the lines of the text of a file, its
line ends unified, are the texts of its lines.
-/

namespace DocGraph

namespace Utf8

def lineFeed : UInt8 := 0x0A

def carriageReturn : UInt8 := 0x0D

/-- The lines of a file, without their ends. The last one may be empty. A carriage return before a
line feed belongs to the end that the line feed makes. -/
def byteLines : Bytes → List Bytes
  | [] => [[]]
  | byte :: rest =>
    if byte = carriageReturn ∧ rest.head? = some lineFeed then byteLines rest
    else if byte = lineFeed ∨ byte = carriageReturn then [] :: byteLines rest
    else (byteLines rest).modifyHead (byte :: ·)

/-- Whether no byte ends a line. -/
def Unbroken (bytes : Bytes) : Prop := lineFeed ∉ bytes ∧ carriageReturn ∉ bytes

variable {line rest : Bytes}

/-! ## Cutting a file -/

theorem byteLines_append (h : Unbroken line) (rest : Bytes) :
    byteLines (line ++ rest) = (byteLines rest).modifyHead (line ++ ·) := by
  induction line with
  | nil => cases hlines : byteLines rest <;> simp [hlines]
  | cons byte line ih =>
    obtain ⟨hfeed, hreturn⟩ := h
    rw [List.mem_cons, not_or] at hfeed hreturn
    have hpair : ¬ (byte = carriageReturn ∧ (line ++ rest).head? = some lineFeed) :=
      fun hpair => hreturn.1 hpair.1.symm
    have hend : ¬ (byte = lineFeed ∨ byte = carriageReturn) :=
      not_or.2 ⟨Ne.symm hfeed.1, Ne.symm hreturn.1⟩
    rw [List.cons_append, byteLines, if_neg hpair, if_neg hend, ih ⟨hfeed.2, hreturn.2⟩]
    cases byteLines rest <;> simp

theorem byteLines_of_unbroken (h : Unbroken line) : byteLines line = [line] := by
  have happend := byteLines_append h []
  rwa [List.append_nil, byteLines, List.modifyHead_cons, List.append_nil] at happend

theorem byteLines_feed (h : Unbroken line) (rest : Bytes) :
    byteLines (line ++ lineFeed :: rest) = line :: byteLines rest := by
  rw [byteLines_append h, byteLines, if_neg fun hpair => absurd hpair.1 (by decide),
    if_pos (.inl rfl), List.modifyHead_cons, List.append_nil]

theorem byteLines_return_feed (h : Unbroken line) (rest : Bytes) :
    byteLines (line ++ carriageReturn :: lineFeed :: rest) = line :: byteLines rest := by
  rw [byteLines_append h, byteLines, if_pos ⟨rfl, rfl⟩, ← byteLines_append h, byteLines_feed h]

theorem byteLines_return (h : Unbroken line) (hrest : rest.head? ≠ some lineFeed) :
    byteLines (line ++ carriageReturn :: rest) = line :: byteLines rest := by
  rw [byteLines_append h, byteLines, if_neg fun hpair => hrest hpair.2, if_pos (.inr rfl),
    List.modifyHead_cons, List.append_nil]

/-- A file is one line, or a first line with its end and what comes after. -/
theorem unbroken_or_exists_line (bytes : Bytes) :
    Unbroken bytes ∨ ∃ line rest, Unbroken line ∧
      (bytes = line ++ lineFeed :: rest ∨ bytes = line ++ carriageReturn :: lineFeed :: rest ∨
        (bytes = line ++ carriageReturn :: rest ∧ rest.head? ≠ some lineFeed)) := by
  induction bytes with
  | nil => exact .inl ⟨List.not_mem_nil, List.not_mem_nil⟩
  | cons byte bytes ih =>
    by_cases hfeed : byte = lineFeed
    · exact .inr ⟨[], bytes, ⟨List.not_mem_nil, List.not_mem_nil⟩, .inl (by rw [hfeed]; rfl)⟩
    by_cases hreturn : byte = carriageReturn
    · refine .inr ?_
      subst hreturn
      by_cases hnext : bytes.head? = some lineFeed
      · obtain ⟨rest, rfl⟩ := List.head?_eq_some_iff.1 hnext
        exact ⟨[], rest, ⟨List.not_mem_nil, List.not_mem_nil⟩, .inr (.inl rfl)⟩
      · exact ⟨[], bytes, ⟨List.not_mem_nil, List.not_mem_nil⟩, .inr (.inr ⟨rfl, hnext⟩)⟩
    have hcons : ∀ {line : Bytes}, Unbroken line → Unbroken (byte :: line) := by
      intro line hline
      exact ⟨by simpa using ⟨Ne.symm hfeed, hline.1⟩, by simpa using ⟨Ne.symm hreturn, hline.2⟩⟩
    rcases ih with hall | ⟨line, rest, hline, hends⟩
    · exact .inl (hcons hall)
    · refine .inr ⟨byte :: line, rest, hcons hline, ?_⟩
      simpa using hends

theorem byteLines_ne_nil (bytes : Bytes) : byteLines bytes ≠ [] := by
  induction bytes with
  | nil => exact List.cons_ne_nil _ _
  | cons byte bytes ih =>
    obtain ⟨first, more, hlines⟩ := List.exists_cons_of_ne_nil ih
    rw [byteLines, hlines]
    split
    · exact List.cons_ne_nil _ _
    split <;> exact List.cons_ne_nil _ _

/-- A byte that ends no line only has a part in the line it is on. By induction on the bytes before
it: whether they end with an end of a line is not for it to change. -/
theorem byteLines_insert {byte : UInt8} (hfeed : byte ≠ lineFeed) (hreturn : byte ≠ carriageReturn)
    (before after : Bytes) :
    ∃ above left right below, byteLines before = above ++ [left] ∧
      byteLines after = right :: below ∧
      byteLines (before ++ byte :: after) = above ++ (left ++ byte :: right) :: below := by
  induction before with
  | nil =>
    obtain ⟨right, below, hafter⟩ := List.exists_cons_of_ne_nil (byteLines_ne_nil after)
    refine ⟨[], [], right, below, rfl, hafter, ?_⟩
    rw [List.nil_append, byteLines, if_neg fun hpair => hreturn hpair.1,
      if_neg (not_or.2 ⟨hfeed, hreturn⟩), hafter]
    rfl
  | cons first before ih =>
    obtain ⟨above, left, right, below, hbefore, hafter, hlines⟩ := ih
    have hhead : (before ++ byte :: after).head? = some lineFeed ↔
        before.head? = some lineFeed := by
      cases before with
      | nil => simp [hfeed]
      | cons => simp
    simp only [List.cons_append, byteLines, hhead, hbefore, hlines]
    split
    · exact ⟨above, left, right, below, rfl, hafter, rfl⟩
    split
    · exact ⟨[] :: above, left, right, below, rfl, hafter, rfl⟩
    · cases above with
      | nil => exact ⟨[], first :: left, right, below, rfl, hafter, rfl⟩
      | cons line above =>
        exact ⟨(first :: line) :: above, left, right, below, rfl, hafter, rfl⟩

/-! ## Cutting its text -/

theorem unitsFrom_some_ne_nil (bytes : Bytes) (sequence : Open) :
    unitsFrom (some sequence) bytes ≠ [] := by
  induction bytes generalizing sequence with
  | nil => simp [unitsFrom]
  | cons byte bytes ih =>
    by_cases hfits : sequence.low ≤ byte.toNat ∧ byte.toNat ≤ sequence.high
    · obtain ⟨hlow, hhigh⟩ := hfits
      by_cases hmissing : sequence.missing ≤ 1
      · rw [unitsFrom_last hlow hhigh hmissing]
        exact List.cons_ne_nil _ _
      · rw [unitsFrom_next hlow hhigh (Nat.lt_of_not_le hmissing)]
        exact ih _
    · rw [unitsFrom_unfit hfits]
      exact List.cons_ne_nil _ _

theorem decodeReplacing_ne_nil {bytes : Bytes} (h : bytes ≠ []) : decodeReplacing bytes ≠ [] := by
  obtain ⟨byte, rest, rfl⟩ := List.exists_cons_of_ne_nil h
  rw [decodeReplacing, Ne, List.map_eq_nil_iff, units]
  rcases lead_cases byte with ⟨-, hlead⟩ | ⟨-, sequence, hlead, -⟩ | ⟨-, hlead⟩
  · rw [unitsFrom, hlead]
    exact List.cons_ne_nil _ _
  · rw [unitsFrom_opens hlead]
    exact unitsFrom_some_ne_nil rest sequence
  · rw [unitsFrom, hlead]
    exact List.cons_ne_nil _ _

theorem newline_mem_decodeReplacing_iff {bytes : Bytes} :
    '\n' ∈ decodeReplacing bytes ↔ lineFeed ∈ bytes :=
  @mem_decodeReplacing_ascii_iff lineFeed bytes (by decide) (by decide)

theorem return_mem_decodeReplacing_iff {bytes : Bytes} :
    '\r' ∈ decodeReplacing bytes ↔ carriageReturn ∈ bytes :=
  @mem_decodeReplacing_ascii_iff carriageReturn bytes (by decide) (by decide)

theorem decodeReplacing_feed (line rest : Bytes) :
    decodeReplacing (line ++ lineFeed :: rest) =
      decodeReplacing line ++ '\n' :: decodeReplacing rest :=
  decodeReplacing_append_ascii (by decide) line rest

theorem decodeReplacing_return (line rest : Bytes) :
    decodeReplacing (line ++ carriageReturn :: rest) =
      decodeReplacing line ++ '\r' :: decodeReplacing rest :=
  decodeReplacing_append_ascii (by decide) line rest

/-- The text of a file begins with a line feed only where the file does. -/
theorem head?_decodeReplacing_ne (h : rest.head? ≠ some lineFeed) :
    (decodeReplacing rest).head? ≠ some '\n' := by
  intro hhead
  have hmem : lineFeed ∈ rest :=
    newline_mem_decodeReplacing_iff.1 (List.mem_of_mem_head? hhead)
  obtain ⟨before, after, rfl, hbefore⟩ := List.eq_append_cons_of_mem hmem
  have hne : before ≠ [] := by
    rintro rfl
    exact h rfl
  rw [decodeReplacing_feed, List.head?_append_of_ne_nil _ (decodeReplacing_ne_nil hne)] at hhead
  exact hbefore (newline_mem_decodeReplacing_iff.1 (List.mem_of_mem_head? hhead))

end Utf8

namespace Text

variable {t rest : Text}

theorem unifyLineEnds_append (h : '\r' ∉ t) (rest : Text) :
    unifyLineEnds (t ++ rest) = t ++ unifyLineEnds rest := by
  induction t with
  | nil => rfl
  | cons c t ih =>
    rw [List.mem_cons, not_or] at h
    rw [List.cons_append, unifyLineEnds, if_neg (Ne.symm h.1), ih h.2, List.cons_append]
    intro _ hc
    exact absurd hc.symm h.1

theorem unifyLineEnds_of_no_return (h : '\r' ∉ t) : unifyLineEnds t = t := by
  have happend := unifyLineEnds_append h []
  rwa [List.append_nil, unifyLineEnds, List.append_nil] at happend

theorem unifyLineEnds_return (h : rest.head? ≠ some '\n') :
    unifyLineEnds ('\r' :: rest) = '\n' :: unifyLineEnds rest := by
  rw [unifyLineEnds, if_pos rfl]
  intro more _ hmore
  exact h (by rw [hmore]; rfl)

theorem return_notMem_unifyLineEnds (t : Text) : '\r' ∉ unifyLineEnds t := by
  fun_induction unifyLineEnds t with
  | case1 => simp
  | case2 rest ih => simpa using ih
  | case3 c rest hpair ih =>
    rw [List.mem_cons, not_or]
    refine ⟨?_, ih⟩
    split
    · decide
    · next hc => exact Ne.symm hc

theorem unifyLineEnds_eq_self_iff : unifyLineEnds t = t ↔ '\r' ∉ t := by
  constructor
  · intro h
    rw [← h]
    exact return_notMem_unifyLineEnds t
  · exact unifyLineEnds_of_no_return

end Text

namespace Utf8

/-- The lines of the text of a file, its line ends unified, are the texts of its lines, whatever
faults its encoding has. By recursion on the file behind its first line. -/
theorem pieces_unifyLineEnds_decodeReplacing (bytes : Bytes) :
    Text.pieces (· == '\n') (Text.unifyLineEnds (decodeReplacing bytes)) =
      (byteLines bytes).map decodeReplacing := by
  rcases unbroken_or_exists_line bytes with hall | ⟨line, rest, hline, hends⟩
  · have hreturn : '\r' ∉ decodeReplacing bytes := mt return_mem_decodeReplacing_iff.1 hall.2
    have hfeed : '\n' ∉ decodeReplacing bytes := mt newline_mem_decodeReplacing_iff.1 hall.1
    rw [byteLines_of_unbroken hall, Text.unifyLineEnds_of_no_return hreturn,
      Text.pieces_eq_singleton]
    · rfl
    · intro c hc
      exact beq_eq_false_iff_ne.2 (ne_of_mem_of_not_mem hc hfeed)
  · have hreturn : '\r' ∉ decodeReplacing line := mt return_mem_decodeReplacing_iff.1 hline.2
    have hfeed : ∀ c ∈ decodeReplacing line, (c == '\n') = false := by
      intro c hc
      exact beq_eq_false_iff_ne.2
        (ne_of_mem_of_not_mem hc (mt newline_mem_decodeReplacing_iff.1 hline.1))
    have hfirst : ∀ t : Text, Text.pieces (· == '\n') (decodeReplacing line ++ '\n' :: t) =
        decodeReplacing line :: Text.pieces (· == '\n') t :=
      fun t => Text.pieces_append_separator hfeed rfl
    rcases hends with rfl | rfl | ⟨rfl, hhead⟩
    · rw [byteLines_feed hline, decodeReplacing_feed, Text.unifyLineEnds_append hreturn,
        show Text.unifyLineEnds ('\n' :: decodeReplacing rest) =
          '\n' :: Text.unifyLineEnds (decodeReplacing rest) from rfl,
        hfirst, pieces_unifyLineEnds_decodeReplacing rest, List.map_cons]
    · have hpair : decodeReplacing (lineFeed :: rest) = '\n' :: decodeReplacing rest :=
        decodeReplacing_feed [] rest
      rw [byteLines_return_feed hline, decodeReplacing_return, hpair,
        Text.unifyLineEnds_append hreturn, Text.unifyLineEnds, hfirst,
        pieces_unifyLineEnds_decodeReplacing rest, List.map_cons]
    · rw [byteLines_return hline hhead, decodeReplacing_return,
        Text.unifyLineEnds_append hreturn,
        Text.unifyLineEnds_return (head?_decodeReplacing_ne hhead), hfirst,
        pieces_unifyLineEnds_decodeReplacing rest, List.map_cons]
termination_by bytes.length
decreasing_by
  all_goals
    subst_vars
    simp only [List.length_append, List.length_cons]
    omega

end Utf8

end DocGraph
