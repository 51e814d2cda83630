import DocGraph.Text.Blank
import DocGraph.Text.Lines
import Mathlib.Data.List.Basic

/-!
# The lines of a text

Lines that hold no line end are read back from the text that they are joined to or ended in by line
feeds. A line feed parts the lines before it from those behind it. A character at the end of a text
closes its last line, continues it or opens a new one, and changes no line before.
-/

namespace DocGraph

theorem isBlank_of_isLineEnd {c : Char} (h : isLineEnd c = true) : isBlank c = true := by
  simp only [isLineEnd, isBlank, inTable, lineEndRanges, blankRanges, List.any_cons, List.any_nil,
    CodeRange.has, Bool.or_eq_true, Bool.and_eq_true, decide_eq_true_eq, Bool.or_false] at h ⊢
  omega

namespace Text

variable {line t rest : Text} {lines : List Text} {c : Char}

theorem lines_cons_of_not (h : isLineEnd c = false) :
    Text.lines (c :: t) = consLine c (Text.lines t) := by
  have hreturn : c ≠ '\r' := by
    rintro rfl
    cases h
  rw [Text.lines]
  · rw [h]
    rfl
  · intro more hc
    exact absurd hc hreturn

theorem lines_cons_of_isLineEnd (h : isLineEnd c = true)
    (hpair : c = '\r' → t.head? ≠ some '\n') : Text.lines (c :: t) = [] :: Text.lines t := by
  rw [Text.lines]
  · rw [if_pos h]
  · rintro more rfl rfl
    exact hpair rfl rfl

theorem lines_append_newline (h : ∀ c ∈ line, isLineEnd c = false) :
    Text.lines (line ++ '\n' :: t) = line :: Text.lines t := by
  induction line with
  | nil => rfl
  | cons c line ih =>
    rw [List.cons_append, lines_cons_of_not (h c List.mem_cons_self),
      ih fun d hd => h d (List.mem_cons_of_mem _ hd), consLine]

/-- Text without a line end is one line, unless it is empty. -/
theorem lines_of_no_end (hne : line ≠ []) (h : ∀ c ∈ line, isLineEnd c = false) :
    Text.lines line = [line] := by
  induction line with
  | nil => exact absurd rfl hne
  | cons c line ih =>
    rw [lines_cons_of_not (h c List.mem_cons_self)]
    by_cases hrest : line = []
    · rw [hrest]
      rfl
    · rw [ih hrest fun d hd => h d (List.mem_cons_of_mem _ hd), consLine]

/-- Lines that are each ended by a line feed are read back. -/
theorem lines_flatMap_newline (h : ∀ line ∈ lines, ∀ c ∈ line, isLineEnd c = false) :
    Text.lines (lines.flatMap (· ++ ['\n'])) = lines := by
  induction lines with
  | nil => rfl
  | cons line more ih =>
    rw [List.flatMap_cons, List.append_assoc, List.singleton_append,
      lines_append_newline (h line List.mem_cons_self),
      ih fun other hother => h other (List.mem_cons_of_mem _ hother)]

/-- Lines that are joined by line feeds are read back. An empty last line is not seen. -/
theorem lines_join_concat (h : ∀ line ∈ lines, ∀ c ∈ line, isLineEnd c = false) (last : Text) :
    Text.lines (join ['\n'] (lines ++ [last])) = lines ++ Text.lines last := by
  induction lines with
  | nil => rfl
  | cons line more ih =>
    have hjoin : join ['\n'] (line :: more ++ [last]) =
        line ++ '\n' :: join ['\n'] (more ++ [last]) := by
      cases more <;> simp [join]
    rw [hjoin, lines_append_newline (h line List.mem_cons_self),
      ih fun other hother => h other (List.mem_cons_of_mem _ hother), List.cons_append]

theorem consLine_append {first : List Text} (hne : first ≠ []) (c : Char) (second : List Text) :
    consLine c (first ++ second) = consLine c first ++ second := by
  cases first with
  | nil => exact absurd rfl hne
  | cons line more => rfl

theorem consLine_ne_nil (c : Char) (lines : List Text) : consLine c lines ≠ [] := by
  cases lines <;> exact List.cons_ne_nil _ _

theorem lines_ne_nil (hne : t ≠ []) : Text.lines t ≠ [] := by
  fun_cases Text.lines t with
  | case1 => exact absurd rfl hne
  | case2 rest => exact List.cons_ne_nil _ _
  | case3 c rest _ _ => exact List.cons_ne_nil _ _
  | case4 c rest _ _ => exact consLine_ne_nil _ _

/-- A line feed ends a line, whatever stands before it. -/
theorem lines_append_feed (a t : Text) :
    Text.lines (a ++ '\n' :: t) = Text.lines (a ++ ['\n']) ++ Text.lines t := by
  fun_induction Text.lines a with
  | case1 => rfl
  | case2 rest ih => exact congrArg ([] :: ·) ih
  | case3 c rest hpair hc ih =>
    by_cases hfeed : c = '\r' ∧ rest = []
    · -- The line feed makes a pair of the last character, which has closed the line already.
      obtain ⟨rfl, rfl⟩ := hfeed
      rfl
    · have hhead : ∀ later, c = '\r' → (rest ++ '\n' :: later).head? ≠ some '\n' := by
        rintro later rfl
        cases rest with
        | nil => exact absurd ⟨rfl, rfl⟩ hfeed
        | cons d more =>
          intro hd
          obtain rfl : d = '\n' := by simpa using hd
          exact hpair more rfl rfl
      rw [List.cons_append, List.cons_append, lines_cons_of_isLineEnd hc (hhead t),
        lines_cons_of_isLineEnd hc (hhead []), ih, List.cons_append]
  | case4 c rest hpair hc ih =>
    have hplain : isLineEnd c = false := Bool.eq_false_iff.2 hc
    have hne : Text.lines (rest ++ ['\n']) ≠ [] := lines_ne_nil (by simp)
    rw [List.cons_append, List.cons_append, lines_cons_of_not hplain, lines_cons_of_not hplain, ih,
      consLine_append hne]

/-- A line holds no line end. -/
theorem not_isLineEnd_of_mem_lines (h : line ∈ Text.lines t) : ∀ c ∈ line, isLineEnd c = false := by
  fun_induction Text.lines t generalizing line with
  | case1 => cases h
  | case2 rest ih =>
    rcases List.mem_cons.1 h with rfl | h
    · simp
    · exact ih h
  | case3 c rest _ _ ih =>
    rcases List.mem_cons.1 h with rfl | h
    · simp
    · exact ih h
  | case4 c rest _ hc ih =>
    have hplain : isLineEnd c = false := Bool.eq_false_iff.2 hc
    cases hrest : Text.lines rest with
    | nil =>
      rw [hrest, consLine, List.mem_singleton] at h
      rw [h, List.forall_mem_singleton]
      exact hplain
    | cons first more =>
      rw [hrest, consLine, List.mem_cons] at h
      rcases h with rfl | h
      · rw [List.forall_mem_cons]
        exact ⟨hplain, ih (by rw [hrest]; exact List.mem_cons_self)⟩
      · exact ih (by rw [hrest]; exact List.mem_cons_of_mem _ h)

/-! ## One character more -/

/-- What a character at the end of a text does to its lines. -/
inductive Extends (c : Char) : List Text → List Text → Prop
  | closes {lines : List Text} : Extends c lines lines
  | opens {lines : List Text} : Extends c lines (lines ++ [if isLineEnd c then [] else [c]])
  | continues {before : List Text} {last : Text} :
    Extends c (before ++ [last]) (before ++ [last ++ [c]])

theorem Extends.cons {old new : List Text} (h : Extends c old new) (line : Text) :
    Extends c (line :: old) (line :: new) := by
  cases h with
  | closes => exact .closes
  | opens => exact .opens
  | continues => exact @Extends.continues c (line :: _) _

theorem Extends.consLine {old new : List Text} (h : Extends c old new) (d : Char) :
    Extends c (consLine d old) (consLine d new) := by
  cases h with
  | closes => exact .closes
  | opens =>
    cases old with
    | nil =>
      -- The only line is that of `d`, which `c` closes or continues.
      cases hc : isLineEnd c with
      | true => exact .closes
      | false => exact @Extends.continues c [] [d]
    | cons line more => exact @Extends.opens c ((d :: line) :: more)
  | @continues before last =>
    cases before with
    | nil => exact @Extends.continues c [] (d :: last)
    | cons line more => exact @Extends.continues c ((d :: line) :: more) last

theorem lines_concat (t : Text) (c : Char) : Extends c (Text.lines t) (Text.lines (t ++ [c])) := by
  fun_induction Text.lines t with
  | case1 =>
    cases hc : isLineEnd c with
    | true =>
      have hlines : Text.lines [c] = [[]] := lines_cons_of_isLineEnd hc fun _ => by simp
      have hopens := @Extends.opens c []
      rwa [hc, if_pos rfl, List.nil_append, ← hlines] at hopens
    | false =>
      have hlines : Text.lines [c] = [[c]] := lines_cons_of_not hc
      have hopens := @Extends.opens c []
      rwa [hc, if_neg Bool.false_ne_true, List.nil_append, ← hlines] at hopens
  | case2 rest ih => exact ih.cons []
  | case3 d rest hpair hd ih =>
    by_cases hnew : d = '\r' ∧ (rest ++ [c]).head? = some '\n'
    · -- The new character makes a pair of the last one, which has closed the line already.
      obtain ⟨rfl, hhead⟩ := hnew
      cases rest with
      | nil =>
        obtain rfl : c = '\n' := by simpa using hhead
        exact .closes
      | cons e more =>
        obtain rfl : e = '\n' := by simpa using hhead
        exact absurd rfl (hpair more rfl)
    · rw [List.cons_append, lines_cons_of_isLineEnd hd fun h1 h2 => hnew ⟨h1, h2⟩]
      exact ih.cons []
  | case4 d rest hpair hd ih =>
    rw [List.cons_append, lines_cons_of_not (Bool.eq_false_iff.2 hd)]
    exact ih.consLine d

end Text

end DocGraph
