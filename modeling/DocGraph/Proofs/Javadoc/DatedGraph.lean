import DocGraph.Proofs.Javadoc.GraphComment

/-!
# Dates in a graph

A date may be written in front of a graph or behind any of its lines, and it is taken out with all
blanks that follow it. In front of the graph nothing is lost by that, and neither is behind its last
line. Behind any other line the line feed goes with the date, so the dated line runs on into the
next one, whose decoration then stands between the two.
-/

namespace DocGraph

namespace Tag

open Text (allBlank trim trimStart trimEnd join)

variable {tagPrefix opening ending date line next a : Text} {type : TagType}
variable {before after more tail : List Text}

/-- Whether a line can be told from the decoration and the date that are written around it. -/
structure IsGraphLine (line : Text) : Prop extends IsBare line where
  plainEnd : (trim line).getLast? ≠ some '*'
  dateless : Dateless line

theorem isGraphLine_nil : IsGraphLine [] where
  toIsBare := isBare_nil
  plainEnd := by decide
  dateless := dateless_of_notMem List.not_mem_nil

/-! ## Places -/

/-- The places for a date in a graph: in front of its first line and behind a line with text. -/
inductive DatePlace
  | front (first : Text) (more : List Text)
  | behind (before : List Text) (line : Text) (filled : allBlank line = false) (after : List Text)

namespace DatePlace

/-- The lines of the graph without a date. -/
def lines : DatePlace → List Text
  | front first more => first :: more
  | behind before line _ after => before ++ line :: after

/-- The lines of the graph with a date. -/
def dated (date : Text) : DatePlace → List Text
  | front first more => (bracketed date ++ first) :: more
  | behind before line _ after => before ++ (line ++ ' ' :: bracketed date) :: after

/-- A line that runs on into the next one, unless nothing but one empty line is left of them. -/
def runOn (line : Text) : List Text → List Text
  | [] => [line]
  | next :: more =>
    if more.isEmpty && allBlank next then [line] else (line ++ " * ".toList ++ next) :: more

/-- The lines of the graph after its date is taken out. The line that it was written behind runs on
into what is below it, which may be a further line of the comment. -/
def left (tail : List Text) : DatePlace → List Text
  | front first more => first :: more
  | behind before line _ after => before ++ runOn line (after ++ tail)

theorem lines_ne_nil (place : DatePlace) : place.lines ≠ [] := by
  cases place with
  | front first more => exact List.cons_ne_nil _ _
  | behind before line filled after =>
    exact List.append_ne_nil_of_right_ne_nil _ (List.cons_ne_nil _ _)

theorem dated_ne_nil (date : Text) (place : DatePlace) : place.dated date ≠ [] := by
  cases place with
  | front first more => exact List.cons_ne_nil _ _
  | behind before line filled after =>
    exact List.append_ne_nil_of_right_ne_nil _ (List.cons_ne_nil _ _)

/-- The line of a date is filled by it. -/
theorem exists_filled_dated (date : Text) (place : DatePlace) :
    ∃ line ∈ place.dated date, allBlank line = false := by
  have hdate : allBlank (bracketed date) = false := by
    rw [bracketed, Text.allBlank_append, Text.allBlank_cons]
    rfl
  cases place with
  | front first more =>
    exact ⟨_, List.mem_cons_self, by rw [Text.allBlank_append, hdate, Bool.false_and]⟩
  | behind before line filled after =>
    exact ⟨_, List.mem_append_right _ List.mem_cons_self,
      by rw [Text.allBlank_append, filled, Bool.false_and]⟩

/-- No marker comes together where a date is written. -/
theorem unmarked_dated (hsolid : ∀ c ∈ tagPrefix, isBlank c = false) (hdate : IsDate date)
    {place : DatePlace} (h : ∀ line ∈ place.lines, ¬ tagMarker tagPrefix <:+: line) :
    ∀ line ∈ place.dated date, ¬ tagMarker tagPrefix <:+: line := by
  have hat : '@' ∉ bracketed date := hdate.notMem_bracketed (by decide) (by decide)
  cases place with
  | front first more =>
    rw [lines, List.forall_mem_cons] at h
    rw [dated, List.forall_mem_cons, tagMarker_eq, Text.infix_append_left_iff_of_notMem hat]
    exact h
  | behind before line filled after =>
    have hspace : ' ' ∉ tagMarker tagPrefix := notMem_tagMarker_of_isBlank hsolid (by decide)
    rw [lines, List.forall_mem_append, List.forall_mem_cons] at h
    rw [dated, List.forall_mem_append, List.forall_mem_cons, Text.infix_append_cons_iff hspace,
      not_or]
    exact ⟨h.1, ⟨h.2.1, not_tagMarker_isInfix hat⟩, h.2.2⟩

end DatePlace

open DatePlace (runOn)

/-! ## Running on -/

/-- There is text below a line that runs on. -/
theorem runOn_cons (h : allBlank (next ++ commentLines more) = false) :
    runOn line (next :: more) = (line ++ " * ".toList ++ next) :: more := by
  have hcond : (more.isEmpty && allBlank next) = false := by
    cases more with
    | nil =>
      rw [commentLines, List.flatMap_nil, List.append_nil] at h
      rw [h, Bool.and_false]
    | cons other more => rfl
  rw [runOn, hcond]
  rfl

/-- Comment lines have a star each, so nothing but blanks is one line at most. -/
theorem eq_nil_of_allBlank (h : allBlank (next ++ commentLines more) = true) : more = [] := by
  by_contra hne
  rw [Text.allBlank_append, ← List.append_nil (commentLines more), not_blank_commentLines hne,
    Bool.and_false] at h
  cases h

theorem runOn_of_allBlank (line : Text) (h : allBlank (next ++ commentLines more) = true) :
    runOn line (next :: more) = [line] := by
  obtain rfl := eq_nil_of_allBlank h
  rw [commentLines, List.flatMap_nil, List.append_nil] at h
  rw [runOn, h]
  rfl

/-- A line that runs on is as bare as it was, but for a star that may end it. -/
theorem isBare_runOn (hfilled : allBlank line = false) (hline : IsBare line)
    (hafter : ∀ other ∈ after, IsBare other) : ∀ other ∈ runOn line after, IsBare other := by
  cases after with
  | nil =>
    rw [runOn, List.forall_mem_singleton]
    exact hline
  | cons next more =>
    rw [List.forall_mem_cons] at hafter
    cases hblank : allBlank (next ++ commentLines more) with
    | true =>
      rw [runOn_of_allBlank line hblank, List.forall_mem_singleton]
      exact hline
    | false =>
      rw [runOn_cons hblank, List.forall_mem_cons]
      refine ⟨⟨?_, ?_⟩, hafter.2⟩
      · rw [List.append_assoc, List.forall_mem_append]
        exact ⟨hline.unbroken, unbroken_decorated hafter.1.unbroken⟩
      · rw [List.append_assoc, Text.head?_trim_append hfilled]
        exact hline.starless

theorem isBare_left {place : DatePlace} (h : ∀ other ∈ place.lines ++ tail, IsBare other) :
    ∀ other ∈ place.left tail, IsBare other := by
  cases place with
  | front first more =>
    rw [List.forall_mem_append] at h
    exact h.1
  | behind before line filled after =>
    rw [DatePlace.lines, List.append_assoc, List.forall_mem_append, List.cons_append,
      List.forall_mem_cons] at h
    rw [DatePlace.left, List.forall_mem_append]
    exact ⟨h.1, isBare_runOn filled h.2.1 h.2.2⟩

/-- The star behind which a line runs on ends it only if there are further lines. -/
theorem getLast?_runOn (hafter : ∀ other ∈ next :: more, (trim other).getLast? ≠ some '*')
    (hblank : allBlank (next ++ commentLines more) = false) :
    ∀ last, (before ++ (line ++ " * ".toList ++ next) :: more).getLast? = some last →
      (trim last).getLast? ≠ some '*' := by
  intro last hlast
  rw [List.getLast?_append_of_ne_nil _ (List.cons_ne_nil _ _)] at hlast
  rw [List.forall_mem_cons] at hafter
  cases more with
  | nil =>
    rw [commentLines, List.flatMap_nil, List.append_nil] at hblank
    obtain rfl : line ++ " * ".toList ++ next = last := by simpa using hlast
    rw [Text.getLast?_trim_append hblank]
    exact hafter.1
  | cons other more =>
    rw [List.getLast?_cons_cons] at hlast
    exact hafter.2 last (List.mem_of_getLast? hlast)

/-! ## Content -/

/-- The date is taken out of content that is cleaned on either side of it. -/
theorem exists_ofRaw_dated (hopening : IsMargin opening) (hdate : IsDate date) (hless : Dateless a)
    (type : TagType) (b : Text) :
    ∃ start, CleansStart start ∧ ofRaw type (opening ++ (a ++ (bracketed date ++ b))) =
      ⟨type, start a ++ trimStart (cleanEnd b), some date⟩ := by
  obtain ⟨start, hstart, hclean⟩ := exists_cleansStart hopening
  have hend : cleanEnd (a ++ (bracketed date ++ b)) = a ++ (bracketed date ++ cleanEnd b) := by
    have hclosing :
        cleanEnd (a ++ '[' :: date ++ ']' :: b) = a ++ '[' :: date ++ ']' :: cleanEnd b :=
      cleanEnd_append_cons (by decide) fun hstar => absurd hstar (by decide)
    simpa [bracketed] using hclosing
  have hfront : start (a ++ (bracketed date ++ cleanEnd b)) =
      start a ++ (bracketed date ++ cleanEnd b) :=
    hstart.append_cons (by decide) (by decide)
  refine ⟨start, hstart, ?_⟩
  rw [ofRaw, hclean, hend, hfront, takeDate?_append hdate (hless.of_isInfix (hstart.isInfix a))]

/-- What is left behind a date is cleaned of its end, and the blanks before it are taken. -/
theorem trimStart_cleanEnd_commentLines (h : allBlank (next ++ commentLines more) = false) :
    trimStart (cleanEnd (commentLines (next :: more))) =
      '*' :: cleanEnd (' ' :: (next ++ commentLines more)) := by
  have hfilled : allBlank (' ' :: (next ++ commentLines more)) = false := by
    rw [Text.allBlank_cons, h, Bool.and_false]
  have hlines : commentLines (next :: more) =
      ['\n', ' '] ++ '*' :: (' ' :: (next ++ commentLines more)) := rfl
  rw [hlines, cleanEnd_append_cons (by decide) fun _ => hfilled,
    Text.trimStart_append_of_allBlank (by decide), Text.trimStart_cons_of_not (by decide)]

/-- The star of an empty last line is taken as well. -/
theorem cleanEnd_commentLines_of_allBlank (h : allBlank (next ++ commentLines more) = true) :
    cleanEnd (commentLines (next :: more)) = [] := by
  have hrest : allBlank (' ' :: (next ++ commentLines more)) = true := by
    rw [Text.allBlank_cons, h]
    decide
  exact cleanEnd_append_star (by decide : allBlank ['\n', ' '] = true) hrest []

/-- Behind a dated line that runs on, cleaning finds the end of the graph as it is left. -/
theorem cleanEnd_join_runOn (h : allBlank (next ++ commentLines more) = false) :
    join lineStart (before ++ [line ++ [' ']]) ++
        trimStart (cleanEnd (commentLines (next :: more))) =
      cleanEnd (join lineStart (before ++ runOn line (next :: more))) := by
  have hfilled : allBlank (' ' :: (next ++ commentLines more)) = false := by
    rw [Text.allBlank_cons, h, Bool.and_false]
  have hjoin : join lineStart (before ++ runOn line (next :: more)) =
      join lineStart (before ++ [line ++ [' ']]) ++
        '*' :: (' ' :: (next ++ commentLines more)) := by
    rw [runOn_cons h, Text.join_append_cons, Text.join_append_cons]
    simp [commentLines]
  rw [trimStart_cleanEnd_commentLines h, hjoin, cleanEnd_append_cons (by decide) fun _ => hfilled]

/-- Where nothing is left behind the date, the dated line is the last one. -/
theorem padded_dated_last (hfilled : allBlank line = false)
    (hbare : ∀ other ∈ before ++ [line], IsBare other) :
    Padded (bareLines (join lineStart (before ++ [line ++ [' ']]) ++ []))
      ((before ++ [line]).map trim) := by
  have hspace : ∀ other ∈ before ++ [line ++ [' ']], IsBare other := by
    rw [List.forall_mem_append, List.forall_mem_singleton] at hbare ⊢
    refine ⟨hbare.1, ?_, ?_⟩
    · rw [List.forall_mem_append]
      exact ⟨hbare.2.unbroken, Text.forall_mem_of_all (by decide)⟩
    · rw [Text.head?_trim_append hfilled]
      exact hbare.2.starless
  have htrim : (before ++ [line ++ [' ']]).map trim = (before ++ [line]).map trim := by
    rw [List.map_append, List.map_append, List.map_singleton, List.map_singleton,
      Text.trim_append_allBlank (by decide)]
  rw [List.append_nil, ← htrim]
  exact padded_join_lineStart hspace

/-- The lines of a graph after a date behind one of them is taken out. -/
theorem padded_runOn (hfilled : allBlank line = false)
    (hbare : ∀ other ∈ before ++ line :: after, IsBare other)
    (hplain : ∀ other ∈ after, (trim other).getLast? ≠ some '*') :
    Padded (bareLines (join lineStart (before ++ [line ++ [' ']]) ++
        trimStart (cleanEnd (commentLines after))))
      ((before ++ runOn line after).map trim) := by
  rw [List.forall_mem_append, List.forall_mem_cons] at hbare
  obtain ⟨hbefore, hline, hafter⟩ := hbare
  have hlast : ∀ other ∈ before ++ [line], IsBare other := by
    rw [List.forall_mem_append, List.forall_mem_singleton]
    exact ⟨hbefore, hline⟩
  cases after with
  | nil => exact padded_dated_last hfilled hlast
  | cons next more =>
    cases hblank : allBlank (next ++ commentLines more) with
    | true =>
      rw [runOn_of_allBlank line hblank, cleanEnd_commentLines_of_allBlank hblank]
      exact padded_dated_last hfilled hlast
    | false =>
      rw [cleanEnd_join_runOn hblank]
      refine padded_cleanEnd_join ?_ ?_
      · rw [List.forall_mem_append]
        exact ⟨hbefore, isBare_runOn hfilled hline hafter⟩
      · rw [runOn_cons hblank]
        exact getLast?_runOn hplain hblank

/-- Content without a date has the blocks of its lines. -/
theorem exists_ofRaw_undated (hopening : IsMargin opening) (type : TagType) {lines : List Text}
    (h : ∀ line ∈ lines, IsGraphLine line) :
    ∃ content, ofRaw type (opening ++ join lineStart lines) = ⟨type, content, none⟩ ∧
      blocks content = blockRuns (lines.map trim) := by
  have hless : Dateless (opening ++ join lineStart lines) :=
    (dateless_join_lineStart fun line hline => (h line hline).dateless).append_left
      (hopening.notMem (by decide) (by decide))
  have hlines := padded_clean_join hopening (fun line hline => (h line hline).toIsBare)
    fun last hlast => (h last (List.mem_of_getLast? hlast)).plainEnd
  exact ⟨_, ofRaw_of_dateless hless type, hlines.blockRuns_eq.symm⟩

/-- Dated content has the blocks of the lines that are left. -/
theorem exists_ofRaw_place (hopening : IsMargin opening) (hdate : IsDate date) (type : TagType)
    (place : DatePlace) (h : ∀ other ∈ place.lines ++ tail, IsGraphLine other)
    (htail : ∀ lines, blockRuns ((lines ++ tail).map trim) = blockRuns (lines.map trim)) :
    ∃ content, ofRaw type (opening ++ join lineStart (place.dated date ++ tail)) =
        ⟨type, content, some date⟩ ∧ blocks content = blockRuns ((place.left tail).map trim) := by
  have hleft := isBare_left fun other hother => (h other hother).toIsBare
  cases place with
  | front first more =>
    have hjoin : join lineStart ((bracketed date ++ first) :: more ++ tail) =
        bracketed date ++ join lineStart (first :: (more ++ tail)) := by
      rw [List.cons_append, Text.join_cons, Text.join_cons, List.append_assoc]
    obtain ⟨start, hstart, htag⟩ := exists_ofRaw_dated hopening hdate
      isGraphLine_nil.dateless type (join lineStart (first :: (more ++ tail)))
    have hnil : start [] = [] := hstart.eq_self rfl (by simp)
    have hend : Padded (bareLines (cleanEnd (join lineStart (first :: (more ++ tail)))))
        ((first :: (more ++ tail)).map trim) :=
      padded_cleanEnd_join (fun other hother => (h other hother).toIsBare) fun last hlast =>
        (h last (List.mem_of_getLast? hlast)).plainEnd
    rw [hnil, List.nil_append, List.nil_append] at htag
    exact ⟨_, by rw [DatePlace.dated, hjoin, htag],
      ((padded_trimStart _).trans hend).blockRuns_eq.symm.trans (htail (first :: more))⟩
  | behind before line filled after =>
    rw [DatePlace.lines, List.append_assoc, List.cons_append] at h
    have hjoin : join lineStart (before ++ (line ++ ' ' :: bracketed date) :: after ++ tail) =
        join lineStart (before ++ [line ++ [' ']]) ++
          (bracketed date ++ commentLines (after ++ tail)) := by
      rw [List.append_assoc, List.cons_append, Text.join_append_cons, Text.join_append_cons]
      simp [commentLines]
    have hfront : ∀ other ∈ before ++ [line ++ [' ']], Dateless other := by
      rw [List.forall_mem_append, List.forall_mem_cons] at h
      rw [List.forall_mem_append, List.forall_mem_singleton]
      exact ⟨fun other hother => (h.1 other hother).dateless,
        h.2.1.dateless.append_cons isGraphLine_nil.dateless (by decide) (by decide)⟩
    obtain ⟨start, hstart, htag⟩ := exists_ofRaw_dated hopening hdate
      (dateless_join_lineStart hfront) type (commentLines (after ++ tail))
    have hlines := padded_runOn filled (fun other hother => (h other hother).toIsBare)
      fun other hother =>
        (h other (List.mem_append_right _ (List.mem_cons_of_mem _ hother))).plainEnd
    have hcleaned := hstart.padded fun bare hmem => by
      obtain ⟨other, hother, rfl⟩ := List.mem_map.1 (hlines.mem hmem)
      exact (hleft other hother).starless
    exact ⟨_, by rw [DatePlace.dated, hjoin, htag], (hcleaned.trans hlines).blockRuns_eq.symm⟩

/-! ## The tag -/

/-- A comment with a graph that begins on the line of its tag or on the next one. -/
def openedGraph (tagPrefix before opening : Text) (lines : List Text) (ending : Text) : Text :=
  before ++ (tagMarker tagPrefix ++
    (TagType.graph.name ++ (opening ++ join lineStart lines) ++ ending))

theorem readTags_openedGraph (hsolid : ∀ c ∈ tagPrefix, isBlank c = false) (hat : '@' ∉ tagPrefix)
    {start : Text} (hstart : ¬ tagMarker tagPrefix <:+: start) (hopening : IsMargin opening)
    (hgap : opening.head?.any isBlank = true) {lines : List Text} (hne : lines ≠ [])
    (hfed : allBlank (opening ++ join lineStart lines) = false)
    (hunmarked : ∀ line ∈ lines, ¬ tagMarker tagPrefix <:+: line)
    (hending : (allBlank ending = true ∧ tail = []) ∨
      (∃ rest, ending = lineStart ++ (tagMarker tagPrefix ++ rest)) ∧ tail = [[]]) :
    readTags tagPrefix (openedGraph tagPrefix start opening lines ending) =
      ofRaw .graph (opening ++ join lineStart (lines ++ tail)) :: readTags tagPrefix ending := by
  have hlines : ¬ tagMarker tagPrefix <:+: join lineStart lines := by
    intro hoccurs
    have hfeed : '\n' ∉ tagMarker tagPrefix := notMem_tagMarker_of_isBlank hsolid (by decide)
    have hspace : ' ' ∉ tagMarker tagPrefix := notMem_tagMarker_of_isBlank hsolid (by decide)
    obtain ⟨line, hline, hoccurs⟩ :=
      exists_infix_of_infix_join List.mem_cons_self (by decide) hfeed hspace hoccurs
    exact hunmarked line hline hoccurs
  rcases hending with ⟨hblanks, rfl⟩ | ⟨⟨rest, rfl⟩, rfl⟩
  · rw [openedGraph, readTags_opened hsolid hat hstart hopening hgap hfed hlines (.blanks hblanks),
      ofRaw_congr (Text.trim_append_allBlank hblanks), List.append_nil]
  · -- The start of the line of the next tag is one more empty line.
    rw [openedGraph, readTags_opened hsolid hat hstart hopening hgap hfed hlines (.tag rest),
      Text.join_concat lineStart hne, List.append_nil, List.append_assoc opening]

/-- Lines that have text have it behind an opening as well. -/
theorem not_blank_opened (opening : Text) {lines : List Text}
    (h : allBlank opening = false ∨ ∃ line ∈ lines, allBlank line = false) :
    allBlank (opening ++ join lineStart lines) = false := by
  rw [Text.allBlank_append]
  rcases h with hopening | ⟨line, hline, hfilled⟩
  · rw [hopening, Bool.false_and]
  · have hoccurs : line <:+: join lineStart lines := Text.infix_join_of_mem hline
    obtain ⟨before, after, hjoin⟩ := hoccurs
    rw [← hjoin, Text.allBlank_append, Text.allBlank_append, hfilled, Bool.and_false,
      Bool.false_and, Bool.and_false]

/-- A date becomes the timestamp of its graph. The graph is read as if it had never been there, but
for the line that it was written behind: this line runs on into the next one. So the documented
types stay the same if and only if they do where the graph has these two lines in one. -/
theorem readTags_dated {tagPrefix : Text} (hsolid : ∀ c ∈ tagPrefix, isBlank c = false)
    (hat : '@' ∉ tagPrefix) {date : Text} (hdate : IsDate date) (place : DatePlace)
    (hunbroken : ∀ line ∈ place.lines, ∀ c ∈ line, isLineEnd c = false)
    (hstarless : ∀ line ∈ place.lines,
      (trim line).head? ≠ some '*' ∧ (trim line).getLast? ≠ some '*')
    (hunmarked : ¬ tagMarker tagPrefix <:+: join ['\n'] place.lines)
    (hdateless : Dateless (join ['\n'] place.lines))
    {start : Text} (hstart : ¬ tagMarker tagPrefix <:+: start)
    {opening : Text} (hopening : IsMargin opening) (hgap : opening.head?.any isBlank = true)
    (hfilled : allBlank opening = false ∨ ∃ line ∈ place.lines, allBlank line = false)
    {ending : Text} {tail : List Text}
    (hending : (allBlank ending = true ∧ tail = []) ∨
      (∃ rest, ending = lineStart ++ (tagMarker tagPrefix ++ rest)) ∧ tail = [[]]) :
    ∃ content content',
      readTags tagPrefix (openedGraph tagPrefix start opening place.lines ending) =
        ⟨.graph, content, none⟩ :: readTags tagPrefix ending ∧
      readTags tagPrefix (openedGraph tagPrefix start opening (place.dated date) ending) =
        ⟨.graph, content', some date⟩ :: readTags tagPrefix ending ∧
      readGraph content = readGraph (join ['\n'] place.lines) ∧
      readGraph content' = readGraph (join ['\n'] (place.left tail)) ∧
      ((∀ name, documentedUses content' name = documentedUses content name) ↔
        ∀ name, documentedUses (join ['\n'] (place.left tail)) name =
          documentedUses (join ['\n'] place.lines) name) := by
  have htail : (∀ other ∈ tail, IsGraphLine other) ∧
      ∀ lines : List Text, blockRuns ((lines ++ tail).map trim) = blockRuns (lines.map trim) := by
    rcases hending with ⟨-, rfl⟩ | ⟨-, rfl⟩
    · exact ⟨by simp, fun lines => by rw [List.append_nil]⟩
    · refine ⟨List.forall_mem_singleton.2 isGraphLine_nil, fun lines => ?_⟩
      rw [List.map_append]
      exact blockRuns_concat_empty _
  have hlines : ∀ other ∈ place.lines ++ tail, IsGraphLine other := by
    rw [List.forall_mem_append]
    exact ⟨fun line hline => ⟨⟨hunbroken line hline, (hstarless line hline).1⟩,
      (hstarless line hline).2, hdateless.of_isInfix (Text.infix_join_of_mem hline)⟩, htail.1⟩
  have hbare : ∀ other ∈ place.lines ++ tail, IsBare other :=
    fun other hother => (hlines other hother).toIsBare
  have hfree : ∀ line ∈ place.lines, ¬ tagMarker tagPrefix <:+: line :=
    fun line hline hoccurs => hunmarked (hoccurs.trans (Text.infix_join_of_mem hline))
  obtain ⟨content, htag, hblocks⟩ := exists_ofRaw_undated hopening .graph hlines
  obtain ⟨content', htag', hblocks'⟩ :=
    exists_ofRaw_place hopening hdate .graph place hlines htail.2
  have hgraph : readGraph content = readGraph (join ['\n'] place.lines) := by
    rw [readGraph, readGraph, hblocks, htail.2 place.lines,
      blocks_join_of_isBare fun line hline => hbare line (List.mem_append_left _ hline)]
  have hgraph' : readGraph content' = readGraph (join ['\n'] (place.left tail)) := by
    rw [readGraph, readGraph, hblocks', blocks_join_of_isBare (isBare_left hbare)]
  refine ⟨content, content', ?_, ?_, hgraph, hgraph', ?_⟩
  · rw [readTags_openedGraph hsolid hat hstart hopening hgap place.lines_ne_nil
      (not_blank_opened opening hfilled) hfree hending, htag]
  · have hfree' := DatePlace.unmarked_dated hsolid hdate hfree
    have hfilled' := not_blank_opened opening (.inr (place.exists_filled_dated date))
    rw [readTags_openedGraph hsolid hat hstart hopening hgap (place.dated_ne_nil date) hfilled'
      hfree' hending, htag']
  · simp only [documentedUses, hgraph, hgraph']

/-- A date behind the last line of a graph leaves its edge in place. -/
theorem readTags_dated_of_last_line :
    let date : Text := "2024-01-01"
    let place : DatePlace := .behind ["Foo".toList] "  ├─[uses]→ Bar".toList (by decide) []
    (∀ c ∈ defaultTagPrefix, isBlank c = false) ∧ '@' ∉ defaultTagPrefix ∧ IsDate date ∧
      (∀ line ∈ place.lines, (∀ c ∈ line, isLineEnd c = false) ∧
        (trim line).head? ≠ some '*' ∧ (trim line).getLast? ≠ some '*') ∧
      ¬ tagMarker defaultTagPrefix <:+: join ['\n'] place.lines ∧
      Dateless (join ['\n'] place.lines) ∧ ¬ tagMarker defaultTagPrefix <:+: lineStart ∧
      IsMargin lineStart ∧ lineStart.head?.any isBlank = true ∧ allBlank lineStart = false ∧
      allBlank ['\n', ' '] = true ∧
      ∃ content, readTags defaultTagPrefix
          "\n * @aicontext-graph\n * Foo\n *   ├─[uses]→ Bar [2024-01-01]\n ".toList =
            [⟨.graph, content, some date⟩] ∧
        documentedUses content "Foo".toList = ["Bar".toList] := by
  intro date place
  have hdate : IsDate date := ⟨"2024".toList, "01".toList, "01".toList, rfl, rfl, rfl, rfl,
    List.all_eq_true.1 (by decide)⟩
  have hall : place.lines.all (fun line => line.all (!isLineEnd ·) &&
      (trim line).head? != some '*' && (trim line).getLast? != some '*') = true := by
    decide +kernel
  have hlines : ∀ line ∈ place.lines, (∀ c ∈ line, isLineEnd c = false) ∧
      (trim line).head? ≠ some '*' ∧ (trim line).getLast? ≠ some '*' := by
    intro line hline
    simpa [and_assoc] using List.all_eq_true.1 hall line hline
  have hunmarked : ¬ tagMarker defaultTagPrefix <:+: join ['\n'] place.lines := by decide +kernel
  have hdateless : Dateless (join ['\n'] place.lines) :=
    takeDate?_eq_none_iff.1 (by decide +kernel)
  have hstart : ¬ tagMarker defaultTagPrefix <:+: lineStart := by decide
  have hblanks : allBlank ['\n', ' '] = true := by decide
  obtain ⟨content, content', -, htags, -, hgraph, -⟩ := readTags_dated not_blank_defaultTagPrefix
    (by decide) hdate place (fun line hline => (hlines line hline).1)
    (fun line hline => (hlines line hline).2) hunmarked hdateless hstart isMargin_lineStart
    (by decide) (.inl (by decide)) (.inl ⟨hblanks, rfl⟩)
  have hcomment : openedGraph defaultTagPrefix lineStart lineStart (place.dated date) ['\n', ' '] =
      "\n * @aicontext-graph\n * Foo\n *   ├─[uses]→ Bar [2024-01-01]\n ".toList := by
    decide +kernel
  rw [hcomment, readTags_of_allBlank hblanks] at htags
  refine ⟨not_blank_defaultTagPrefix, by decide, hdate, hlines, hunmarked, hdateless, hstart,
    isMargin_lineStart, by decide, by decide, hblanks, content', htags, ?_⟩
  rw [documentedUses, hgraph]
  decide +kernel

/-- A date behind the name of a node takes its first edge away. -/
theorem readTags_dated_loses_edge :
    readTags defaultTagPrefix "\n * @aicontext-graph\n * Foo\n *   ├─[uses]→ Bar\n ".toList =
        [⟨.graph, "Foo\n *   ├─[uses]→ Bar".toList, none⟩] ∧
      documentedUses "Foo\n *   ├─[uses]→ Bar".toList "Foo".toList = ["Bar".toList] ∧
      readTags defaultTagPrefix
          "\n * @aicontext-graph\n * Foo [2024-01-01]\n *   ├─[uses]→ Bar\n ".toList =
        [⟨.graph, "Foo *   ├─[uses]→ Bar".toList, some "2024-01-01".toList⟩] ∧
      documentedUses "Foo *   ├─[uses]→ Bar".toList "Foo".toList = [] := by
  decide +kernel

end Tag

end DocGraph
