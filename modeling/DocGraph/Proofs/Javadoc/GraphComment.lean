import DocGraph.Proofs.Javadoc.RoundTrip

/-!
# Graphs in a comment

A graph is put into a comment with each of its lines on a comment line of its own, behind the tag of
its kind. The lines are found again in the content of that tag, with empty lines around them at
most, as cleaning and the star of a next line only touch lines that say nothing.
-/

namespace DocGraph

namespace Tag

open Text (allBlank trim trimEnd join EndsFirst)

variable {tagPrefix before opening blanks line sub t : Text} {lines : List Text} {type : TagType}
variable {c : Char}

/-- Lines, each on a comment line of its own. -/
def commentLines (lines : List Text) : Text := lines.flatMap (lineStart ++ ·)

/-- A comment with a tag on a line of its own and lines below it. -/
def linesComment (tagPrefix before : Text) (type : TagType) (lines : List Text) (ending : Text) :
    Text :=
  before ++ (tagMarker tagPrefix ++ (type.name ++ (commentLines lines ++ ending)))

/-- Whether a line is one line wherever it stands and has no star of its own in front. -/
structure IsBare (line : Text) : Prop where
  unbroken : ∀ c ∈ line, isLineEnd c = false
  starless : (trim line).head? ≠ some '*'

/-- Lines that keep their text in a comment and are not taken for its decoration. -/
structure Commentable (lines : List Text) : Prop where
  unbroken : ∀ line ∈ lines, ∀ c ∈ line, isLineEnd c = false
  starless : NoOuterStars (lines.map trim)
  dateless : ∀ line ∈ lines, Dateless line

theorem Commentable.isBare (h : Commentable lines) : ∀ line ∈ lines, IsBare line :=
  fun line hline => ⟨h.unbroken line hline, (h.starless _ (List.mem_map_of_mem hline)).1⟩

/-! ## Occurrences -/

theorem commentLines_cons (line : Text) (more : List Text) :
    commentLines (line :: more) = '\n' :: ([' ', '*'] ++ ' ' :: (line ++ commentLines more)) := rfl

theorem commentLines_eq (hne : lines ≠ []) :
    commentLines lines = lineStart ++ join lineStart lines := by
  obtain ⟨line, more, rfl⟩ := List.exists_cons_of_ne_nil hne
  rw [Text.join_cons, commentLines, List.flatMap_cons, List.append_assoc]

/-- What holds no blank occurs in commented lines only where it occurs in a line. -/
theorem exists_infix_of_infix_commentLines (hc : c ∈ sub) (hstart : c ∉ lineStart)
    (hfeed : '\n' ∉ sub) (hspace : ' ' ∉ sub) (h : sub <:+: t ++ commentLines lines) :
    sub <:+: t ∨ ∃ line ∈ lines, sub <:+: line := by
  induction lines generalizing t with
  | nil => exact .inl (by simpa [commentLines] using h)
  | cons line more ih =>
    rw [commentLines_cons, Text.infix_append_cons_iff hfeed, Text.infix_append_cons_iff hspace] at h
    rcases h with ht | hstar | hmore
    · exact .inl ht
    · exact absurd (hstar.subset hc) fun hmem => hstart (List.mem_cons_of_mem _
        (List.mem_append_left [' '] hmem))
    · rcases ih hmore with hline | ⟨other, hother, hoccurs⟩
      · exact .inr ⟨line, List.mem_cons_self, hline⟩
      · exact .inr ⟨other, List.mem_cons_of_mem _ hother, hoccurs⟩

/-- What holds no blank occurs in the lines of a comment only where it occurs in a line. -/
theorem exists_infix_of_infix_join (hc : c ∈ sub) (hstart : c ∉ lineStart) (hfeed : '\n' ∉ sub)
    (hspace : ' ' ∉ sub) (h : sub <:+: join lineStart lines) : ∃ line ∈ lines, sub <:+: line := by
  cases lines with
  | nil => exact absurd (h.subset hc) List.not_mem_nil
  | cons first more =>
    rw [Text.join_cons] at h
    rcases exists_infix_of_infix_commentLines hc hstart hfeed hspace h with hfirst | hmore
    · exact ⟨first, List.mem_cons_self, hfirst⟩
    · obtain ⟨line, hline, hoccurs⟩ := hmore
      exact ⟨line, List.mem_cons_of_mem _ hline, hoccurs⟩

theorem dateless_join_lineStart (h : ∀ line ∈ lines, Dateless line) :
    Dateless (join lineStart lines) := by
  intro date hdate hoccurs
  have hfeed : '\n' ∉ bracketed date := hdate.notMem_bracketed (by decide) (by decide)
  have hspace : ' ' ∉ bracketed date := hdate.notMem_bracketed (by decide) (by decide)
  obtain ⟨line, hline, hoccurs⟩ :=
    exists_infix_of_infix_join List.mem_cons_self (by decide) hfeed hspace hoccurs
  exact h line hline date hdate hoccurs

theorem Commentable.dateless_commentLines (h : Commentable lines) :
    Dateless (commentLines lines) := by
  by_cases hne : lines = []
  · rw [hne]
    exact dateless_of_notMem List.not_mem_nil
  · rw [commentLines_eq hne]
    exact (dateless_join_lineStart h.dateless).append_left (by decide)

/-! ## Lines -/

theorem isBare_nil : IsBare [] := ⟨by simp, by decide⟩

theorem map_undecorate_of_isBare (h : ∀ line ∈ lines, IsBare line) :
    lines.map undecorate = lines.map trim :=
  List.map_congr_left fun line hline => undecorate_of_not_star (h line hline).starless

theorem blocks_join_of_isBare (h : ∀ line ∈ lines, IsBare line) :
    blocks (join ['\n'] lines) = blockRuns (lines.map trim) := by
  rw [blocks_join fun line hline => (h line hline).unbroken, map_undecorate_of_isBare h]

theorem Commentable.map_undecorate (h : Commentable lines) :
    lines.map undecorate = lines.map trim := map_undecorate_of_isBare h.isBare

/-- Lines of a comment are left of it, but for an empty last one. -/
theorem padded_join_lineStart (h : ∀ line ∈ lines, IsBare line) :
    Padded (bareLines (join lineStart lines)) (lines.map trim) := by
  cases lines with
  | nil => exact Padded.refl _
  | cons first more =>
    rw [List.forall_mem_cons] at h
    have hshown : join lineStart (first :: more) =
        join ['\n'] (first :: more.map (" * ".toList ++ ·)) := by
      rw [Text.join_cons, Text.join_cons, List.flatMap_map]
      rfl
    have hunbroken : ∀ line ∈ first :: more.map (" * ".toList ++ ·),
        ∀ c ∈ line, isLineEnd c = false := by
      rw [List.forall_mem_cons, List.forall_mem_map]
      exact ⟨h.1.unbroken, fun line hline => unbroken_decorated (h.2 line hline).unbroken⟩
    have hbare : (first :: more.map (" * ".toList ++ ·)).map undecorate =
        (first :: more).map trim := by
      rw [List.map_cons, List.map_map, undecorate_of_not_star h.1.starless, List.map_cons]
      exact congrArg _ (List.map_congr_left fun line _ => undecorate_comment line)
    rw [hshown, ← hbare]
    exact padded_join hunbroken

/-- Cleaning the end of a comment takes at most the star of an empty last line. -/
theorem padded_cleanEnd_join (h : ∀ line ∈ lines, IsBare line)
    (hlast : ∀ line, lines.getLast? = some line → (trim line).getLast? ≠ some '*') :
    Padded (bareLines (cleanEnd (join lineStart lines))) (lines.map trim) := by
  rcases List.eq_nil_or_concat' lines with rfl | ⟨init, last, rfl⟩
  · exact Padded.refl _
  have hjoin := Text.join_append_cons lineStart init last []
  rw [List.flatMap_nil, List.append_nil] at hjoin
  cases hblank : allBlank last with
  | false =>
    have hwhole : allBlank (init.flatMap (· ++ lineStart) ++ last) = false := by
      rw [Text.allBlank_append, hblank, Bool.and_false]
    have hplain : (trimEnd (join lineStart (init ++ [last]))).getLast? ≠ some '*' := by
      rw [hjoin, Text.getLast?_trimEnd hwhole, Text.getLast?_trim_append hblank]
      exact hlast last (List.getLast?_concat ..)
    rw [cleanEnd, dropTrailingStar_of_not hplain]
    exact (padded_trimEnd _).trans (padded_join_lineStart h)
  | true =>
    rw [List.map_append, List.map_singleton, Text.trim_of_allBlank hblank]
    rcases List.eq_nil_or_concat' init with rfl | ⟨before, prev, rfl⟩
    · have hempty : cleanEnd last = [] := by
        rw [cleanEnd, Text.trimEnd_of_allBlank hblank]
        decide
      rw [hjoin, List.flatMap_nil, List.nil_append, hempty]
      exact Padded.empty_cons _
    · -- The last line is the star that is taken, and the blanks before it belong to the line above.
      have hstar : join lineStart (before ++ [prev] ++ [last]) =
          join lineStart (before ++ [prev]) ++ (['\n', ' '] ++ '*' :: ' ' :: last) :=
        Text.join_concat lineStart
          (List.append_ne_nil_of_right_ne_nil _ (List.cons_ne_nil _ _)) last
      have hrest : allBlank (' ' :: last) = true := by
        rw [Text.allBlank_cons, hblank]
        decide
      rw [hstar, cleanEnd_append_star (by decide) hrest]
      exact (padded_trimEnd _).trans ((padded_join_lineStart fun line hline =>
        h line (List.mem_append_left _ hline)).trans (Padded.concat_empty _))

/-- Cleaned content of a graph has the lines of the graph. -/
theorem padded_clean_join (hopening : IsMargin opening) (h : ∀ line ∈ lines, IsBare line)
    (hlast : ∀ line, lines.getLast? = some line → (trim line).getLast? ≠ some '*') :
    Padded (bareLines (clean (opening ++ join lineStart lines))) (lines.map trim) := by
  obtain ⟨start, hstart, hclean⟩ := exists_cleansStart hopening
  have hend := padded_cleanEnd_join h hlast
  have hbare : ∀ bare ∈ bareLines (cleanEnd (join lineStart lines) ++ []),
      bare.head? ≠ some '*' := by
    intro bare hbare
    rw [List.append_nil] at hbare
    obtain ⟨line, hline, rfl⟩ := List.mem_map.1 (hend.mem hbare)
    exact (h line hline).starless
  have hcleaned := hstart.padded hbare
  rw [List.append_nil, List.append_nil] at hcleaned
  rw [hclean]
  exact hcleaned.trans hend

/-! ## Content -/

/-- The content of the tag above commented lines. -/
theorem ofRaw_commentLines (h : Commentable lines) (hblanks : allBlank blanks = true) :
    ofRaw type (commentLines lines ++ blanks) = ⟨type, clean (commentLines lines), none⟩ := by
  rw [ofRaw_congr (Text.trim_append_allBlank hblanks), ofRaw_of_dateless h.dateless_commentLines]

/-- The blocks of commented lines are those of the lines. -/
theorem blocks_clean_commentLines (h : Commentable lines) :
    blocks (clean (commentLines lines)) = blockRuns (lines.map trim) := by
  by_cases hne : lines = []
  · rw [hne]
    decide
  · rw [commentLines_eq hne, blocks,
      ← (padded_clean_join isMargin_lineStart h.isBare fun line hline =>
        (h.starless _ (List.mem_map_of_mem (List.mem_of_getLast? hline))).2).blockRuns_eq]

theorem forall_mem_concat_empty {P : Text → Prop} (h : ∀ line ∈ lines, P line) (hempty : P []) :
    ∀ line ∈ lines ++ [[]], P line := by
  intro line hline
  rcases List.mem_append.1 hline with hline | hlast
  · exact h line hline
  · rwa [List.mem_singleton.1 hlast]

theorem Commentable.concat_empty (h : Commentable lines) : Commentable (lines ++ [[]]) where
  unbroken := forall_mem_concat_empty h.unbroken (by simp)
  starless := by
    rw [List.map_append]
    exact h.starless.padded (Padded.concat_empty _)
  dateless := forall_mem_concat_empty h.dateless (takeDate?_eq_none_iff.1 rfl)

/-! ## The tag above -/

theorem announces_commentLines (hne : lines ≠ []) (type : TagType) (after : Text) :
    Announces (type.name ++ (commentLines lines ++ after)) type (commentLines lines ++ after) := by
  obtain ⟨line, more, rfl⟩ := List.exists_cons_of_ne_nil hne
  exact ⟨rfl, '\n', _, rfl, by decide⟩

theorem not_blank_commentLines (hne : lines ≠ []) (after : Text) :
    allBlank (commentLines lines ++ after) = false := by
  obtain ⟨line, more, rfl⟩ := List.exists_cons_of_ne_nil hne
  have hstart : allBlank lineStart = false := by decide
  rw [commentLines, List.flatMap_cons, Text.allBlank_append, Text.allBlank_append,
    Text.allBlank_append, hstart]
  rfl

theorem unmarked_commentLines (hsolid : ∀ c ∈ tagPrefix, isBlank c = false)
    (h : ∀ line ∈ lines, ¬ tagMarker tagPrefix <:+: line) (hblanks : allBlank blanks = true) :
    ¬ tagMarker tagPrefix <:+: type.name ++ (commentLines lines ++ blanks) := by
  have hfree : ∀ c ∈ blanks, c ∉ tagMarker tagPrefix := fun c hc =>
    notMem_tagMarker_of_isBlank hsolid (Text.isBlank_of_mem hblanks hc)
  rw [← List.append_assoc, Text.infix_append_right_iff_of_notMem (tagMarker_ne_nil _) hfree]
  intro hoccurs
  have hfeed : '\n' ∉ tagMarker tagPrefix := notMem_tagMarker_of_isBlank hsolid (by decide)
  have hspace : ' ' ∉ tagMarker tagPrefix := notMem_tagMarker_of_isBlank hsolid (by decide)
  rcases exists_infix_of_infix_commentLines List.mem_cons_self (by decide) hfeed hspace hoccurs with
    hname | ⟨line, hline, hoccurs⟩
  · exact not_tagMarker_isInfix (fun hmem => (TagType.not_blank_of_mem_name hmem).2 rfl) hname
  · exact h line hline hoccurs

/-- The tag is the only one where the comment ends below its lines. -/
theorem readTags_linesComment_blank (hne : lines ≠ []) (h : Commentable lines)
    (hbefore : EndsFirst (tagMarker tagPrefix) before) (hblanks : allBlank blanks = true)
    (hunmarked : ¬ tagMarker tagPrefix <:+: type.name ++ (commentLines lines ++ blanks)) :
    readTags tagPrefix (linesComment tagPrefix before type lines blanks) =
      [⟨type, clean (commentLines lines), none⟩] := by
  rw [readTags_eq, linesComment, tagsFrom_append_marker hbefore,
    tagsFrom_stretch_end (announces_commentLines hne type blanks)
      (.inl (not_blank_commentLines hne blanks)) hunmarked, ofRaw_commentLines h hblanks]

/-- Before a further tag, the start of its line is one more empty line. -/
theorem readTags_linesComment_marker (hsolid : ∀ c ∈ tagPrefix, isBlank c = false)
    (hat : '@' ∉ tagPrefix) (h : Commentable lines)
    (hunmarked : ∀ line ∈ lines, ¬ tagMarker tagPrefix <:+: line)
    (hbefore : EndsFirst (tagMarker tagPrefix) before) (rest : Text) :
    readTags tagPrefix
        (linesComment tagPrefix before type lines (lineStart ++ (tagMarker tagPrefix ++ rest))) =
      ⟨type, clean (commentLines (lines ++ [[]])), none⟩ ::
        readTags tagPrefix (lineStart ++ (tagMarker tagPrefix ++ rest)) := by
  have hne : lines ++ [[]] ≠ [] := List.append_ne_nil_of_right_ne_nil _ (List.cons_ne_nil _ _)
  have hlines : commentLines lines ++ (lineStart ++ (tagMarker tagPrefix ++ rest)) =
      commentLines (lines ++ [[]]) ++ [] ++ (tagMarker tagPrefix ++ rest) := by
    simp [commentLines]
  have hunmarked' : ∀ line ∈ lines ++ [[]], ¬ tagMarker tagPrefix <:+: line :=
    forall_mem_concat_empty hunmarked (by rw [List.infix_nil]; exact tagMarker_ne_nil _)
  have hfirst : EndsFirst (tagMarker tagPrefix)
      (type.name ++ (commentLines (lines ++ [[]]) ++ [])) :=
    endsFirst_tagMarker hat (unmarked_commentLines hsolid hunmarked' rfl)
  rw [readTags_eq, readTags_eq, linesComment, tagsFrom_append_marker hbefore, hlines,
    ← List.append_assoc type.name, tagsFrom_stretch_marker (announces_commentLines hne type [])
      (not_blank_commentLines hne []) hfirst, ofRaw_commentLines h.concat_empty rfl,
    tagsFrom_lineStart]

/-- A graph is read again from the comment that it is put into, whatever tag follows it. -/
theorem readGraph_linesComment {tagPrefix : Text} (hsolid : ∀ c ∈ tagPrefix, isBlank c = false)
    (hat : '@' ∉ tagPrefix) {lines : List Text} (hne : lines ≠ [])
    (hunbroken : ∀ line ∈ lines, ∀ c ∈ line, isLineEnd c = false)
    (hstarless : ∀ line ∈ lines, (trim line).head? ≠ some '*' ∧ (trim line).getLast? ≠ some '*')
    (hunmarked : ¬ tagMarker tagPrefix <:+: join ['\n'] lines)
    (hdateless : Dateless (join ['\n'] lines))
    {before : Text} (hbefore : ¬ tagMarker tagPrefix <:+: before)
    {ending : Text} (hending : allBlank ending = true ∨
      ∃ rest, ending = lineStart ++ (tagMarker tagPrefix ++ rest)) :
    ∃ content, readTags tagPrefix (linesComment tagPrefix before .graph lines ending) =
        ⟨.graph, content, none⟩ :: readTags tagPrefix ending ∧
      readGraph content = readGraph (join ['\n'] lines) ∧
      ∀ name, documentedUses content name = documentedUses (join ['\n'] lines) name := by
  have hlines : Commentable lines :=
    { unbroken := hunbroken
      starless := by simpa [NoOuterStars] using hstarless
      dateless := fun line hline => hdateless.of_isInfix (Text.infix_join_of_mem hline) }
  have hlinesUnmarked : ∀ line ∈ lines, ¬ tagMarker tagPrefix <:+: line :=
    fun line hline hoccurs => hunmarked (hoccurs.trans (Text.infix_join_of_mem hline))
  have hfirst := endsFirst_tagMarker hat hbefore
  have hblocks : blocks (join ['\n'] lines) = blockRuns (lines.map trim) := by
    rw [blocks, ← (padded_join hunbroken).blockRuns_eq, hlines.map_undecorate]
  -- It is enough that the content has the blocks of the graph.
  suffices hcontent : ∃ content, readTags tagPrefix
      (linesComment tagPrefix before .graph lines ending) =
        ⟨.graph, content, none⟩ :: readTags tagPrefix ending ∧
      blocks content = blocks (join ['\n'] lines) by
    obtain ⟨content, htags, hsame⟩ := hcontent
    have hgraph : readGraph content = readGraph (join ['\n'] lines) := by
      rw [readGraph, readGraph, hsame]
    exact ⟨content, htags, hgraph, fun name => by rw [documentedUses, documentedUses, hgraph]⟩
  rcases hending with hblanks | ⟨rest, rfl⟩
  · have hend : readTags tagPrefix ending = [] := tagsFrom_of_not_isInfix
      (not_tagMarker_isInfix (Text.notMem_of_allBlank hblanks (by decide)))
    exact ⟨_, by rw [hend, readTags_linesComment_blank hne hlines hfirst hblanks
        (unmarked_commentLines hsolid hlinesUnmarked hblanks)],
      by rw [hblocks, blocks_clean_commentLines hlines]⟩
  · refine ⟨_, readTags_linesComment_marker hsolid hat hlines hlinesUnmarked hfirst rest, ?_⟩
    have hmore : (lines ++ [[]]).map trim = lines.map trim ++ [[]] := by
      rw [List.map_append]
      rfl
    rw [hblocks, blocks_clean_commentLines hlines.concat_empty, hmore, blockRuns_concat_empty]

/-- Two blocks between blank lines and a rule below them. -/
theorem readGraph_linesComment_of_two_blocks :
    let lines : List Text := [[], "Foo".toList, " ".toList, "Bar ".toList,
      "  ├─[uses]→ A, B".toList, []]
    let ending := lineStart ++ (tagMarker defaultTagPrefix ++ "rule x\n ".toList)
    let comment := linesComment defaultTagPrefix lineStart .graph lines ending
    (∀ c ∈ defaultTagPrefix, isBlank c = false) ∧ '@' ∉ defaultTagPrefix ∧
      (∀ line ∈ lines, (∀ c ∈ line, isLineEnd c = false) ∧
        (trim line).head? ≠ some '*' ∧ (trim line).getLast? ≠ some '*') ∧
      ¬ tagMarker defaultTagPrefix <:+: join ['\n'] lines ∧ Dateless (join ['\n'] lines) ∧
      ¬ tagMarker defaultTagPrefix <:+: lineStart ∧
      ∃ content, readTags defaultTagPrefix comment =
          [⟨.graph, content, none⟩, ⟨.rule, "x".toList, none⟩] ∧
        documentedUses content "Bar".toList = ["A".toList, "B".toList] := by
  intro lines ending comment
  have hall : lines.all (fun line => line.all (!isLineEnd ·) &&
      (trim line).head? != some '*' && (trim line).getLast? != some '*') = true := by
    decide +kernel
  have hlines : ∀ line ∈ lines, (∀ c ∈ line, isLineEnd c = false) ∧
      (trim line).head? ≠ some '*' ∧ (trim line).getLast? ≠ some '*' := by
    intro line hline
    simpa [and_assoc] using List.all_eq_true.1 hall line hline
  have hunmarked : ¬ tagMarker defaultTagPrefix <:+: join ['\n'] lines := by decide +kernel
  have hdateless : Dateless (join ['\n'] lines) := takeDate?_eq_none_iff.1 (by decide +kernel)
  have hbefore : ¬ tagMarker defaultTagPrefix <:+: lineStart := by decide
  obtain ⟨content, htags, -, huses⟩ := readGraph_linesComment not_blank_defaultTagPrefix
    (by decide)
    (List.cons_ne_nil _ _) (fun line hline => (hlines line hline).1)
    (fun line hline => (hlines line hline).2) hunmarked hdateless hbefore (.inr ⟨_, rfl⟩)
  have hrule : readTags defaultTagPrefix ending = [⟨.rule, "x".toList, none⟩] := by decide +kernel
  refine ⟨not_blank_defaultTagPrefix, by decide, hlines, hunmarked, hdateless, hbefore, content,
    ?_, ?_⟩
  · rw [← hrule]
    exact htags
  · rw [huses]
    decide +kernel

end Tag

end DocGraph
