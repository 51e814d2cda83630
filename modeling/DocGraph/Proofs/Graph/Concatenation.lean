import DocGraph.Proofs.Graph.Padding

/-!
# Graphs behind each other

A line of which nothing is left once its decoration is off parts the blocks before it from those
behind it. The line feed in front of it ends a line even where the text before ends in a carriage
return: the two are one line end then, and the line between the texts is the next one. So texts that
are put behind each other with a blank line between them are read each on its own.
-/

namespace DocGraph

variable {gap : Text}

/-- A line that is empty but for its decoration parts the blocks of two texts. -/
theorem blocks_append_gap (hunbroken : ∀ c ∈ gap, isLineEnd c = false)
    (hgap : undecorate gap = []) (first second : Text) :
    blocks (first ++ '\n' :: (gap ++ '\n' :: second)) = blocks first ++ blocks second := by
  have hlines : bareLines (first ++ '\n' :: (gap ++ '\n' :: second)) =
      bareLines (first ++ ['\n']) ++ [] :: bareLines second := by
    rw [bareLines, Text.lines_append_feed, Text.lines_append_newline hunbroken, List.map_append,
      List.map_cons, hgap]
    rfl
  have hfirst : blockRuns (bareLines (first ++ ['\n'])) = blocks first :=
    (padded_concat_of_blank (by decide) first).blockRuns_eq
  rw [blocks, hlines, blockRuns_append, hfirst]
  rfl

/-- So the nodes of both texts are read, each text on its own. -/
theorem readGraph_append_gap (hunbroken : ∀ c ∈ gap, isLineEnd c = false)
    (hgap : undecorate gap = []) (first second : Text) :
    readGraph (first ++ '\n' :: (gap ++ '\n' :: second)) = readGraph first ++ readGraph second := by
  rw [readGraph, blocks_append_gap hunbroken hgap, List.map_append, List.filter_append]
  rfl

/-- Two texts with a blank line between them give the nodes of the first and then those of the
second, whatever line end, blank or star stands where they meet. -/
theorem readGraph_append_blank_line (first second : Text) :
    readGraph (first ++ "\n\n".toList ++ second) = readGraph first ++ readGraph second := by
  have hblocks : blocks (first ++ "\n\n".toList ++ second) = blocks first ++ blocks second := by
    rw [List.append_assoc]
    exact blocks_append_gap (fun _ h => absurd h List.not_mem_nil) rfl first second
  rw [readGraph, hblocks, List.map_append, List.filter_append]
  rfl

/-- The carriage return and the first line feed are one line end, so the second one ends the line
between the blocks. -/
example :
    readGraph "A\r\n\n \u2028B".toList = readGraph "A\r".toList ++ readGraph " \u2028B".toList := by
  decide +kernel

end DocGraph
