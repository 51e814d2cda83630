import DocGraph.Proofs.Graph.Layout
import Mathlib.Data.List.Flatten

/-!
# A graph read as one block

A text can also be read as a single block, whatever parts its blocks. The lines of that block are
the lines of all blocks in order, so its node has the edges of all of them and the name of the first
block that gives one.

The graph leaves a block out in which every line is an edge. The edges of such a block are the only
ones that the single block has and the graph has not.
-/

namespace DocGraph

open Text (trim)

variable {t : Text} {run more : List Text} {runs : List (List Text)}

/-! ## Lines of runs -/

private theorem filter_cons_filled {line : Text} (h : line ≠ []) (rest : List Text) :
    (line :: rest).filter (!·.isEmpty) = line :: rest.filter (!·.isEmpty) :=
  List.filter_cons_of_pos (by simp [h])

/-- Nothing but the empty lines is lost between the runs. -/
theorem flatten_blockRuns (lines : List Text) :
    (blockRuns lines).flatten = lines.filter (!·.isEmpty) := by
  fun_induction blockRuns lines with
  | case1 => rfl
  | case2 rest ih => exact ih
  | case3 line hline => exact (filter_cons_filled hline []).symm
  | case4 line hline rest ih =>
    rw [List.flatten_cons, ih, filter_cons_filled hline]
    rfl
  | case5 line hline next rest hnext hruns ih => exact absurd hruns (blockRuns_ne_nil hnext rest)
  | case6 line hline next rest hnext run more hruns ih =>
    rw [hruns, List.flatten_cons] at ih
    rw [hruns, filter_cons_filled hline, ← ih]
    rfl

theorem readBlock_eq (t : Text) : readBlock t = nodeOfLines (blocks t).flatten := by
  rw [readBlock, blocks, flatten_blockRuns]

theorem edgesOfLines_flatten (runs : List (List Text)) :
    edgesOfLines runs.flatten = (runs.map nodeOfLines).flatMap Node.edges := by
  rw [edgesOfLines, List.filterMap_flatten, List.flatMap_map, List.flatMap_def]
  rfl

/-! ## Names of runs -/

theorem nameOfLines_append_of_edges (h : ∀ line ∈ run, drawsEdge line = true) (more : List Text) :
    nameOfLines (run ++ more) = nameOfLines more := by
  have hnone : run.find? (!drawsEdge ·) = none := by
    rw [List.find?_eq_none]
    intro line hline
    simp [h line hline]
  rw [nameOfLines, List.find?_append, hnone, Option.none_or, ← nameOfLines]

theorem nameOfLines_append_of_name (h : ∃ line ∈ run, drawsEdge line = false) (more : List Text) :
    nameOfLines (run ++ more) = nameOfLines run := by
  have hsome : (run.find? (!drawsEdge ·)).isSome = true := by
    rw [List.find?_isSome]
    obtain ⟨line, hline, hplain⟩ := h
    exact ⟨line, hline, by simp [hplain]⟩
  obtain ⟨line, hfound⟩ := Option.isSome_iff_exists.1 hsome
  rw [nameOfLines, nameOfLines, List.find?_append, hfound, Option.some_or]

/-- A node has no name where every line is an edge. -/
theorem isEmpty_nodeOfLines_iff (hfilled : ∀ line ∈ run, trim line ≠ []) :
    (nodeOfLines run).isEmpty = true ↔ ∀ line ∈ run, drawsEdge line = true := by
  rw [Node.isEmpty, List.isEmpty_iff, nodeOfLines, nameOfLines]
  cases hfound : run.find? (!drawsEdge ·) with
  | none => simpa using hfound
  | some line =>
    have hmem := List.mem_of_find?_eq_some hfound
    have hplain : drawsEdge line = false := by simpa using List.find?_some hfound
    exact iff_of_false (hfilled line hmem) fun hedges => by simp [hedges line hmem] at hplain

/-- Of all runs the first one with a name names their lines. -/
theorem nameOfLines_flatten (hfilled : ∀ run ∈ runs, ∀ line ∈ run, trim line ≠ []) :
    nameOfLines runs.flatten =
      (((runs.map nodeOfLines).filter (!·.isEmpty)).head?.map Node.name).getD [] := by
  induction runs with
  | nil => rfl
  | cons run rest ih =>
    have hrun := isEmpty_nodeOfLines_iff (hfilled run List.mem_cons_self)
    have hrest := ih fun other hother => hfilled other (List.mem_cons_of_mem _ hother)
    rw [List.flatten_cons, List.map_cons]
    by_cases hedges : ∀ line ∈ run, drawsEdge line = true
    · have hempty := hrun.2 hedges
      rw [nameOfLines_append_of_edges hedges, hrest, List.filter_cons_of_neg (by simp [hempty])]
    · have hnamed : (nodeOfLines run).isEmpty = false := by
        rw [Bool.eq_false_iff]
        exact fun hempty => hedges (hrun.1 hempty)
      have hplain : ∃ line ∈ run, drawsEdge line = false := by simpa using hedges
      rw [nameOfLines_append_of_name hplain, List.filter_cons_of_pos (by simp [hnamed])]
      rfl

/-! ## Blocks of a text -/

theorem trim_ne_nil_of_mem_blocks : ∀ run ∈ blocks t, ∀ line ∈ run, trim line ≠ [] := by
  intro run hrun line hline
  obtain ⟨hne, htrimmed, -⟩ := of_mem_blocks hrun hline
  rw [htrimmed]
  exact hne

theorem blocks_of_run (hfilled : [] ∉ run) (h : Padded run (bareLines t)) :
    blocks t = if run.isEmpty then [] else [run] := by
  rw [blocks, h.blockRuns_eq]
  cases run with
  | nil => rfl
  | cons line rest => exact blockRuns_of_nonempty (List.cons_ne_nil _ _) hfilled

/-- The node of a text read as one block against the nodes of its graph: it has the name of the
first and the edges of all, and those of the blocks without a name besides. -/
theorem readBlock_gathers_readGraph (t : Text) :
    (readBlock t).name = ((readGraph t).head?.map Node.name).getD [] ∧
      ((readGraph t).flatMap Node.edges).Sublist (readBlock t).edges ∧
      ((∀ block ∈ blocks t, ∃ line ∈ block, drawsEdge line = false) →
        (readGraph t).flatMap Node.edges = (readBlock t).edges) ∧
      ∀ run, [] ∉ run → Padded run (bareLines t) →
        readGraph t = if (readBlock t).isEmpty then [] else [readBlock t] := by
  have hedges : (readBlock t).edges = ((blocks t).map nodeOfLines).flatMap Node.edges := by
    rw [readBlock_eq]
    exact edgesOfLines_flatten (blocks t)
  refine ⟨?_, ?_, fun hnamed => ?_, fun run hfilled hrun => ?_⟩
  · rw [readBlock_eq]
    exact nameOfLines_flatten trim_ne_nil_of_mem_blocks
  · rw [hedges]
    exact List.filter_sublist.flatMap Node.edges
  · have hall : readGraph t = (blocks t).map nodeOfLines := by
      rw [readGraph, List.filter_eq_self]
      intro node hnode
      obtain ⟨block, hblock, rfl⟩ := List.mem_map.1 hnode
      obtain ⟨line, hline, hplain⟩ := hnamed block hblock
      have hempty := isEmpty_nodeOfLines_iff (trim_ne_nil_of_mem_blocks block hblock)
      rw [Bool.not_eq_true', Bool.eq_false_iff, Ne, hempty]
      exact fun hdrawn => by simp [hdrawn line hline] at hplain
    rw [hall, hedges]
  · rw [readBlock_eq, readGraph, blocks_of_run hfilled hrun]
    cases run with
    | nil => rfl
    | cons line rest =>
      rw [List.isEmpty_cons, if_neg Bool.false_ne_true, List.flatten_singleton, List.map_singleton,
        List.filter_singleton]
      cases (nodeOfLines (line :: rest)).isEmpty <;> rfl

/-- Two blocks, in the first of which the edge stands before the name, and a run of two lines
between lines that hold a star only. -/
theorem readBlock_gathers_of_two_blocks :
    let parted := "├─[uses]→ B\nA\n *\n * C\n *   └─[by]← D".toList
    let single := " *\n * A\n *   ├─[uses]→ B\n *\n".toList
    (∀ block ∈ blocks parted, ∃ line ∈ block, drawsEdge line = false) ∧
      (readGraph parted).flatMap Node.edges = (readBlock parted).edges ∧
      Padded ["A".toList, "├─[uses]→ B".toList] (bareLines single) ∧
      readGraph single = if (readBlock single).isEmpty then [] else [readBlock single] := by
  intro parted single
  have hnamed : ∀ block ∈ blocks parted, ∃ line ∈ block, drawsEdge line = false := by
    decide +kernel
  have hrun : Padded ["A".toList, "├─[uses]→ B".toList] (bareLines single) :=
    ⟨1, 1, by decide +kernel⟩
  exact ⟨hnamed, (readBlock_gathers_readGraph parted).2.2.1 hnamed, hrun,
    (readBlock_gathers_readGraph single).2.2.2 _ (by decide) hrun⟩

end DocGraph
