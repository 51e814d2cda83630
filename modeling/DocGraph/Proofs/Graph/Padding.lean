import DocGraph.Graph.Uses
import DocGraph.Proofs.Text.Lines
import DocGraph.Proofs.Text.Trim

/-!
# Blank lines around a graph

The blocks of a graph are the runs of its lines that are not empty once their decoration is off. So
empty lines before the first and behind the last block say nothing, and neither do blanks or the
star of a comment line where they stand in such lines.

`Padded` is that relation between the bare lines of two texts. What follows shows that texts are so
related when blanks are added at either end, and that related texts have the same blocks.
-/

namespace DocGraph

open Text (allBlank trim trimStart trimEnd join)

variable {line t rest : Text} {c : Char} {inner middle outer lines : List Text}

/-! ## Decoration -/

theorem undecorate_congr {a b : Text} (h : trim a = trim b) : undecorate a = undecorate b := by
  rw [undecorate, undecorate, h]

theorem undecorate_of_allBlank (h : allBlank line = true) : undecorate line = [] := by
  rw [undecorate, Text.trim_of_allBlank h]

theorem undecorate_star_cons (line : Text) : undecorate ('*' :: line) = trim line := by
  rw [undecorate, Text.trim_cons_of_not (by decide)]
  exact Text.trim_trimEnd line

theorem undecorate_of_not_star (h : (trim line).head? ≠ some '*') :
    undecorate line = trim line := by
  rw [undecorate]
  split
  · next rest hline => exact absurd (by rw [hline]; rfl) h
  · rfl

/-- What is left of a line is trimmed. -/
theorem trim_undecorate (line : Text) : trim (undecorate line) = undecorate line := by
  rw [undecorate]
  split <;> exact Text.trim_trim _

theorem undecorate_subset (line : Text) : undecorate line ⊆ line := by
  have htrim := (Text.trim_isInfix line).subset
  rw [undecorate]
  split
  · next rest hline =>
    intro c hc
    apply htrim
    rw [hline]
    exact List.mem_cons_of_mem _ ((Text.trim_isInfix rest).subset hc)
  · exact htrim

/-- Behind the star of a comment line stands the line. -/
theorem undecorate_comment (line : Text) : undecorate (" * ".toList ++ line) = trim line := by
  have hcongr : trim (" * ".toList ++ line) = trim ('*' :: ' ' :: line) :=
    Text.trim_cons_of_blank (by decide)
  rw [undecorate_congr hcongr, undecorate_star_cons, Text.trim_cons_of_blank (by decide)]

theorem unbroken_decorated (h : ∀ c ∈ line, isLineEnd c = false) :
    ∀ c ∈ " * ".toList ++ line, isLineEnd c = false := by
  have hdecoration : (" * ".toList).all (!isLineEnd ·) = true := by decide
  intro c hc
  rcases List.mem_append.1 hc with hstart | hline
  · simpa using List.all_eq_true.1 hdecoration c hstart
  · exact h c hline

/-! ## Padding -/

/-- Whether lines become others by empty lines before the first and behind the last. -/
def Padded (inner outer : List Text) : Prop :=
  ∃ before after : Nat, outer = List.replicate before [] ++ inner ++ List.replicate after []

namespace Padded

theorem refl (lines : List Text) : Padded lines lines := ⟨0, 0, by simp⟩

theorem trans (h : Padded inner middle) (h' : Padded middle outer) : Padded inner outer := by
  obtain ⟨before, after, rfl⟩ := h
  obtain ⟨before', after', rfl⟩ := h'
  refine ⟨before' + before, after + after', ?_⟩
  simp only [List.replicate_add, List.append_assoc]

theorem empty_cons (lines : List Text) : Padded lines ([] :: lines) := ⟨1, 0, by simp⟩

theorem concat_empty (lines : List Text) : Padded lines (lines ++ [[]]) := ⟨0, 1, by simp⟩

theorem mem (h : Padded inner outer) (hline : line ∈ inner) : line ∈ outer := by
  obtain ⟨before, after, rfl⟩ := h
  exact List.mem_append_left _ (List.mem_append_right _ hline)

end Padded

/-! ## Runs of lines -/

theorem blockRuns_cons_empty (h : line ≠ []) (rest : List Text) :
    blockRuns (line :: [] :: rest) = [line] :: blockRuns rest := by
  cases line with
  | nil => exact absurd rfl h
  | cons c line => rfl

theorem blockRuns_cons_cons {next : Text} (h : line ≠ []) (h' : next ≠ []) (rest : List Text) :
    blockRuns (line :: next :: rest) =
      match blockRuns (next :: rest) with
      | [] => [[line]]
      | run :: more => (line :: run) :: more := by
  cases line with
  | nil => exact absurd rfl h
  | cons c line =>
    cases next with
    | nil => exact absurd rfl h'
    | cons d next => rfl

theorem blockRuns_ne_nil (h : line ≠ []) (rest : List Text) : blockRuns (line :: rest) ≠ [] := by
  cases rest with
  | nil =>
    cases line with
    | nil => exact absurd rfl h
    | cons c line => exact List.cons_ne_nil _ _
  | cons next rest =>
    by_cases hnext : next = []
    · rw [hnext, blockRuns_cons_empty h]
      exact List.cons_ne_nil _ _
    · rw [blockRuns_cons_cons h hnext]
      split <;> exact List.cons_ne_nil _ _

/-- An empty line keeps the runs before it apart from those behind it. -/
theorem blockRuns_append (before after : List Text) :
    blockRuns (before ++ [] :: after) = blockRuns before ++ blockRuns after := by
  fun_induction blockRuns before with
  | case1 => rfl
  | case2 rest ih => exact ih
  | case3 line hline => exact blockRuns_cons_empty hline after
  | case4 line hline rest ih =>
    exact (blockRuns_cons_empty hline _).trans (congrArg ([line] :: ·) ih)
  | case5 line hline next rest hnext hruns ih => exact absurd hruns (blockRuns_ne_nil hnext rest)
  | case6 line hline next rest hnext run more hruns ih =>
    rw [List.cons_append, List.cons_append, blockRuns_cons_cons hline hnext, ← List.cons_append, ih,
      hruns]
    rfl

theorem blockRuns_concat_empty (lines : List Text) :
    blockRuns (lines ++ [[]]) = blockRuns lines :=
  (blockRuns_append lines []).trans (List.append_nil _)

theorem blockRuns_of_nonempty (hne : lines ≠ []) (h : [] ∉ lines) : blockRuns lines = [lines] := by
  induction lines with
  | nil => exact absurd rfl hne
  | cons line more ih =>
    obtain ⟨hline, hmore⟩ : line ≠ [] ∧ [] ∉ more := by simpa [eq_comm] using h
    cases more with
    | nil =>
      rw [← blockRuns_concat_empty]
      exact blockRuns_cons_empty hline []
    | cons next later =>
      have hnext : next ≠ [] := fun hempty => hmore (hempty ▸ List.mem_cons_self)
      rw [blockRuns_cons_cons hline hnext, ih (List.cons_ne_nil _ _) hmore]

/-- Lines that are not empty are one run up to the next empty line. -/
theorem blockRuns_append_empty (hne : lines ≠ []) (h : [] ∉ lines) (rest : List Text) :
    blockRuns (lines ++ [] :: rest) = lines :: blockRuns rest := by
  rw [blockRuns_append, blockRuns_of_nonempty hne h]
  rfl

/-- The runs are made of lines that are not empty. -/
theorem of_mem_blockRuns {run : List Text} (hrun : run ∈ blockRuns lines) (hline : line ∈ run) :
    line ∈ lines ∧ line ≠ [] := by
  fun_induction blockRuns lines generalizing run with
  | case1 => cases hrun
  | case2 rest ih =>
    obtain ⟨hmem, hne⟩ := ih hrun hline
    exact ⟨List.mem_cons_of_mem _ hmem, hne⟩
  | case3 first hfirst =>
    rw [List.mem_singleton.1 hrun, List.mem_singleton] at hline
    exact ⟨hline ▸ List.mem_cons_self, hline ▸ hfirst⟩
  | case4 first hfirst rest ih =>
    rcases List.mem_cons.1 hrun with rfl | hrun
    · rw [List.mem_singleton.1 hline]
      exact ⟨List.mem_cons_self, hfirst⟩
    · obtain ⟨hmem, hne⟩ := ih hrun hline
      exact ⟨List.mem_cons_of_mem _ hmem, hne⟩
  | case5 first hfirst next rest hnext hruns ih =>
    rw [hruns] at hrun
    rw [List.mem_singleton.1 hrun, List.mem_singleton] at hline
    exact ⟨hline ▸ List.mem_cons_self, hline ▸ hfirst⟩
  | case6 first hfirst next rest hnext found more hruns ih =>
    rw [hruns] at hrun ih
    rcases List.mem_cons.1 hrun with rfl | hrun
    · rcases List.mem_cons.1 hline with rfl | hline
      · exact ⟨List.mem_cons_self, hfirst⟩
      · obtain ⟨hmem, hne⟩ := ih List.mem_cons_self hline
        exact ⟨List.mem_cons_of_mem _ hmem, hne⟩
    · obtain ⟨hmem, hne⟩ := ih (List.mem_cons_of_mem _ hrun) hline
      exact ⟨List.mem_cons_of_mem _ hmem, hne⟩

theorem Padded.blockRuns_eq (h : Padded inner outer) : blockRuns outer = blockRuns inner := by
  obtain ⟨before, after, rfl⟩ := h
  have hbefore : ∀ lines, blockRuns (List.replicate before [] ++ lines) = blockRuns lines := by
    intro lines
    induction before with
    | zero => rfl
    | succ n ih => exact ih
  rw [List.append_assoc, hbefore]
  induction after with
  | zero => rw [List.replicate_zero, List.append_nil]
  | succ n ih => rw [List.replicate_succ', ← List.append_assoc, blockRuns_concat_empty, ih]

/-! ## Joined lines -/

/-- The lines of a text that is joined of lines, but for an empty last one. -/
theorem padded_join (h : ∀ line ∈ lines, ∀ c ∈ line, isLineEnd c = false) :
    Padded (bareLines (join ['\n'] lines)) (lines.map undecorate) := by
  rcases List.eq_nil_or_concat' lines with rfl | ⟨init, last, rfl⟩
  · exact Padded.refl _
  · have hinit : ∀ line ∈ init, ∀ c ∈ line, isLineEnd c = false :=
      fun line hline => h line (List.mem_append_left _ hline)
    have hlast : ∀ c ∈ last, isLineEnd c = false :=
      h last (List.mem_append_right _ List.mem_cons_self)
    rw [bareLines, Text.lines_join_concat hinit, List.map_append, List.map_append]
    by_cases hempty : last = []
    · rw [hempty, show Text.lines [] = [] from rfl, List.map_nil, List.append_nil]
      exact Padded.concat_empty _
    · rw [Text.lines_of_no_end hempty hlast]
      exact Padded.refl _

theorem Padded.filter_eq (h : Padded inner outer) :
    outer.filter (!·.isEmpty) = inner.filter (!·.isEmpty) := by
  obtain ⟨before, after, rfl⟩ := h
  have hempty : ∀ n : Nat, (List.replicate n ([] : Text)).filter (!·.isEmpty) = [] := by
    intro n
    rw [List.filter_eq_nil_iff]
    intro line hline
    rw [List.eq_of_mem_replicate hline]
    decide
  rw [List.filter_append, List.filter_append, hempty, hempty, List.nil_append, List.append_nil]

/-- Joined lines that are read as a single block. -/
theorem readBlock_join (h : ∀ line ∈ lines, ∀ c ∈ line, isLineEnd c = false) :
    readBlock (join ['\n'] lines) =
      nodeOfLines ((lines.map undecorate).filter (!·.isEmpty)) := by
  rw [readBlock, ← (padded_join h).filter_eq]

theorem blocks_join (h : ∀ line ∈ lines, ∀ c ∈ line, isLineEnd c = false) :
    blocks (join ['\n'] lines) = blockRuns (lines.map undecorate) := by
  rw [blocks, ← (padded_join h).blockRuns_eq]

/-! ## Blanks at the ends of a text -/

/-- The line in front takes the blank, or the blank ends a line of its own. -/
theorem padded_cons_of_blank (hc : isBlank c = true) (t : Text) :
    Padded (bareLines t) (bareLines (c :: t)) := by
  cases hend : isLineEnd c with
  | true =>
    by_cases hpair : c = '\r' ∧ t.head? = some '\n'
    · obtain ⟨rfl, hhead⟩ := hpair
      cases t with
      | nil => cases hhead
      | cons d rest =>
        obtain rfl : d = '\n' := by simpa using hhead
        exact Padded.refl _
    · rw [bareLines, bareLines, Text.lines_cons_of_isLineEnd hend fun h1 h2 => hpair ⟨h1, h2⟩]
      exact Padded.empty_cons _
  | false =>
    rw [bareLines, bareLines, Text.lines_cons_of_not hend]
    cases Text.lines t with
    | nil =>
      rw [Text.consLine, List.map_singleton, undecorate_of_allBlank (by simp [allBlank, hc])]
      exact Padded.empty_cons _
    | cons line more =>
      rw [Text.consLine, List.map_cons, List.map_cons,
        undecorate_congr (Text.trim_cons_of_blank hc)]
      exact Padded.refl _

/-- A blank at the end closes the last line, belongs to it or is alone on a new one. -/
theorem padded_concat_of_blank (hc : isBlank c = true) (t : Text) :
    Padded (bareLines t) (bareLines (t ++ [c])) := by
  have hone : allBlank [c] = true := by simp [allBlank, hc]
  have hextends := Text.lines_concat t c
  rw [bareLines, bareLines]
  generalize Text.lines t = old, Text.lines (t ++ [c]) = new at hextends ⊢
  cases hextends with
  | closes => exact Padded.refl _
  | opens =>
    have hempty : undecorate (if isLineEnd c then [] else [c]) = [] := by
      split
      · rfl
      · exact undecorate_of_allBlank hone
    rw [List.map_append, List.map_singleton, hempty]
    exact Padded.concat_empty _
  | continues =>
    rw [List.map_append, List.map_append, List.map_singleton, List.map_singleton,
      undecorate_congr (Text.trim_append_allBlank hone)]
    exact Padded.refl _

theorem padded_append_left {blanks : Text} (h : allBlank blanks = true) (t : Text) :
    Padded (bareLines t) (bareLines (blanks ++ t)) := by
  induction blanks with
  | nil => exact Padded.refl _
  | cons c blanks ih =>
    rw [Text.allBlank_cons, Bool.and_eq_true] at h
    exact (ih h.2).trans (padded_cons_of_blank h.1 _)

theorem padded_append_right {blanks : Text} (h : allBlank blanks = true) (t : Text) :
    Padded (bareLines t) (bareLines (t ++ blanks)) := by
  induction blanks generalizing t with
  | nil =>
    rw [List.append_nil]
    exact Padded.refl _
  | cons c blanks ih =>
    rw [Text.allBlank_cons, Bool.and_eq_true] at h
    rw [← List.singleton_append, ← List.append_assoc]
    exact (padded_concat_of_blank h.1 t).trans (ih h.2 _)

theorem padded_trimStart (t : Text) : Padded (bareLines (trimStart t)) (bareLines t) := by
  obtain ⟨blanks, hblanks, ht⟩ := Text.exists_blanks_trimStart t
  conv_rhs => rw [ht]
  exact padded_append_left hblanks _

theorem padded_trimEnd (t : Text) : Padded (bareLines (trimEnd t)) (bareLines t) := by
  obtain ⟨blanks, hblanks, ht⟩ := Text.exists_trimEnd_blanks t
  conv_rhs => rw [ht]
  exact padded_append_right hblanks _

theorem padded_of_allBlank {t : Text} (h : allBlank t = true) : Padded [] (bareLines t) := by
  have hpadded := padded_append_left h []
  rwa [List.append_nil] at hpadded

/-- Nothing can be read from a blank text, so it needs no case of its own. -/
theorem readBlock_of_allBlank {t : Text} (h : allBlank t = true) : readBlock t = .empty := by
  rw [readBlock, (padded_of_allBlank h).filter_eq]
  rfl

theorem readGraph_of_allBlank {t : Text} (h : allBlank t = true) : readGraph t = [] := by
  rw [readGraph, blocks, (padded_of_allBlank h).blockRuns_eq]
  rfl

/-! ## Stars at the ends of a text -/

/-- Whether a star neither begins nor ends any line. -/
def NoOuterStars (lines : List Text) : Prop :=
  ∀ line ∈ lines, line.head? ≠ some '*' ∧ line.getLast? ≠ some '*'

theorem NoOuterStars.padded (h : NoOuterStars inner) (hpadded : Padded inner outer) :
    NoOuterStars outer := by
  obtain ⟨before, after, rfl⟩ := hpadded
  intro line hline
  rcases List.mem_append.1 hline with hline | hempty
  · rcases List.mem_append.1 hline with hempty | hinner
    · rw [List.eq_of_mem_replicate hempty]
      decide
    · exact h line hinner
  · rw [List.eq_of_mem_replicate hempty]
    decide

/-- A star in front decorates the first line. -/
theorem padded_star_cons (h : ∀ line ∈ bareLines ('*' :: t), line.head? ≠ some '*') :
    Padded (bareLines t) (bareLines ('*' :: t)) := by
  have hlines : bareLines ('*' :: t) = (Text.consLine '*' (Text.lines t)).map undecorate := by
    rw [bareLines, Text.lines_cons_of_not (by decide)]
  rw [bareLines, hlines]
  rw [hlines] at h
  cases hrest : Text.lines t with
  | nil => exact Padded.empty_cons _
  | cons line more =>
    rw [hrest, Text.consLine, List.map_cons, undecorate_star_cons] at h
    rw [Text.consLine, List.map_cons, List.map_cons, undecorate_star_cons,
      undecorate_of_not_star (h _ List.mem_cons_self)]
    exact Padded.refl _

end DocGraph
