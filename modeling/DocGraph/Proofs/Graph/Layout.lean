import DocGraph.Graph.Layout
import DocGraph.Proofs.Graph.EdgeLine
import DocGraph.Proofs.Graph.Padding

/-!
# The normal form of a graph

Laying out a graph writes each node in the one way that is shown to readers. A graph that can be
drawn is read from its layout as it was: each of its lines falls into the class it was written for,
and edge lines are cut at the commas that join their targets.

What is read from any text can be drawn, however its lines were ordered and its brackets matched, if
no edge has lost its relation. So a text may be replaced by the layout of its graph.
-/

namespace DocGraph

open Text (allBlank trim join)

variable {t shown : Text} {run : List Text}

/-! ## What can be drawn -/

/-- Edges that can be told from the line that shows them. -/
structure Edge.Drawable (edge : Edge) : Prop where
  named : edge.relation ≠ []
  trimmed : trim edge.relation = edge.relation
  unclosed : ']' ∉ edge.relation
  aimed : edge.targets ≠ []
  solid : AllSolid edge.targets
  separated : Separated 0 edge.targets
  unbroken : ∀ part ∈ edge.relation :: edge.targets, ∀ c ∈ part, isLineEnd c = false

/-- Nodes that can be told from the lines that show them. -/
structure Node.Drawable (node : Node) : Prop where
  named : node.name ≠ []
  trimmed : trim node.name = node.name
  plain : drawsEdge node.name = false
  unbroken : ∀ c ∈ node.name, isLineEnd c = false
  edges : ∀ edge ∈ node.edges, edge.Drawable

/-- The line of an edge without decoration. -/
def Edge.line (edge : Edge) : Text :=
  edgeLine edge.relation edge.direction (join ", ".toList edge.targets)

/-- The lines of a node without decoration. -/
def Node.lines (node : Node) : List Text := node.name :: node.edges.map Edge.line

/-! ## Single lines -/

/-- An edge stands in a comment as its line behind a margin. -/
theorem Edge.layout_eq (edge : Edge) :
    " *   ├─".toList ++ edge.label = " * ".toList ++ ("  ".toList ++ edge.line) := by
  simp [Edge.label, Edge.line, edgeLine]

namespace Edge.Drawable

variable {edge : Edge}

theorem unbroken_line (h : edge.Drawable) : ∀ c ∈ edge.line, isLineEnd c = false := by
  have hfixed :
      ∀ c ∈ ['├', '─', '[', ']', edge.direction.arrow, ' ', ','], isLineEnd c = false := by
    cases edge.direction <;> exact Text.forall_mem_of_all (by decide)
  intro c hc
  simp only [Edge.line, edgeLine, List.mem_cons, List.mem_append] at hc
  rcases hc with rfl | rfl | rfl | hc | rfl | rfl | rfl | hc
  · exact hfixed _ (by simp)
  · exact hfixed _ (by simp)
  · exact hfixed _ (by simp)
  · exact h.unbroken _ List.mem_cons_self c hc
  · exact hfixed _ (by simp)
  · exact hfixed _ (by simp)
  · exact hfixed _ (by simp)
  · rcases Text.of_mem_join hc with hseparator | ⟨target, htarget, hc⟩
    · have hmem : c = ',' ∨ c = ' ' := by simpa using hseparator
      rcases hmem with rfl | rfl <;> decide
    · exact h.unbroken target (List.mem_cons_of_mem _ htarget) c hc

theorem trim_line (h : edge.Drawable) : trim edge.line = edge.line :=
  trim_edgeLine (trim_join h.aimed h.solid) (join_ne_nil h.aimed h.solid)

/-- The line of an edge shows the edge. -/
theorem readEdge?_line (h : edge.Drawable) : readEdge? edge.line = some edge := by
  have hfeed : '\n' ∉ join ", ".toList edge.targets := by
    intro hmem
    have hend := h.unbroken_line '\n' (subset_edgeLine hmem)
    cases hend
  rw [readEdge?, Edge.line, EdgeLine.read?_edgeLine h.named h.unclosed
    (trim_join h.aimed h.solid) (join_ne_nil h.aimed h.solid) hfeed, Option.bind_some,
    EdgeLine.edge?, readTargets_join h.separated h.solid, h.trimmed]
  split
  · next hnone => exact absurd hnone h.aimed
  · rfl

end Edge.Drawable

theorem readEdge?_of_not_drawsEdge (h : drawsEdge shown = false) : readEdge? shown = none := by
  rw [drawsEdge, Option.isSome_eq_false_iff, Option.isNone_iff_eq_none] at h
  rw [readEdge?, h]
  rfl

/-! ## Reading a layout -/

namespace Node.Drawable

variable {node : Node}

theorem map_undecorate_layout (h : node.Drawable) :
    node.layout.map undecorate = node.lines := by
  have hedges : (node.edges.map fun edge => " *   ├─".toList ++ edge.label).map undecorate =
      node.edges.map Edge.line := by
    rw [List.map_map]
    apply List.map_congr_left
    intro edge hedge
    rw [Function.comp_apply, edge.layout_eq, undecorate_comment,
      Text.trim_append_of_allBlank (by decide), (h.edges edge hedge).trim_line]
  rw [Node.layout, List.map_cons, undecorate_comment, h.trimmed, hedges, Node.lines]

theorem empty_notMem_lines (h : node.Drawable) : [] ∉ node.lines := by
  rw [Node.lines, List.mem_cons, List.mem_map]
  rintro (hname | ⟨edge, -, hedge⟩)
  · exact h.named hname.symm
  · exact List.cons_ne_nil _ _ hedge

theorem unbroken_layout (h : node.Drawable) :
    ∀ line ∈ node.layout, ∀ c ∈ line, isLineEnd c = false := by
  rw [Node.layout, List.forall_mem_cons, List.forall_mem_map]
  refine ⟨unbroken_decorated h.unbroken, fun edge hedge => ?_⟩
  rw [edge.layout_eq]
  refine unbroken_decorated fun c hc => ?_
  rcases List.mem_append.1 hc with hblank | hc
  · obtain rfl : c = ' ' := by simpa using hblank
    decide
  · exact (h.edges edge hedge).unbroken_line c hc

/-- The lines of a node describe the node. -/
theorem nodeOfLines_lines (h : node.Drawable) : nodeOfLines node.lines = node := by
  have hname : nameOfLines node.lines = node.name := by
    rw [nameOfLines, Node.lines, List.find?_cons_of_pos (by rw [h.plain]; rfl)]
    exact h.trimmed
  have hedges : edgesOfLines node.lines = node.edges := by
    rw [edgesOfLines, Node.lines, List.filterMap_cons_none (readEdge?_of_not_drawsEdge h.plain),
      List.filterMap_map]
    have hread : ∀ edge ∈ node.edges, (readEdge? ∘ Edge.line) edge = some edge :=
      fun edge hedge => (h.edges edge hedge).readEdge?_line
    rw [List.filterMap_congr hread]
    exact List.filterMap_some
  rw [nodeOfLines, hname, hedges]

end Node.Drawable

theorem layoutLines_cons_cons (node next : Node) (later : List Node) :
    layoutLines (node :: next :: later) =
      node.layout ++ " *".toList :: layoutLines (next :: later) := rfl

theorem blockRuns_layoutLines {nodes : List Node} (h : ∀ node ∈ nodes, node.Drawable) :
    blockRuns ((layoutLines nodes).map undecorate) = nodes.map Node.lines := by
  induction nodes with
  | nil => rfl
  | cons node more ih =>
    have hnode := h node List.mem_cons_self
    have hne : node.lines ≠ [] := List.cons_ne_nil _ _
    cases more with
    | nil =>
      rw [layoutLines, hnode.map_undecorate_layout,
        blockRuns_of_nonempty hne hnode.empty_notMem_lines]
      rfl
    | cons next later =>
      have hmore := ih fun other hother => h other (List.mem_cons_of_mem _ hother)
      have hbare : undecorate " *".toList = [] := by decide
      rw [layoutLines_cons_cons, List.map_append, List.map_cons, hnode.map_undecorate_layout, hbare,
        blockRuns_append_empty hne hnode.empty_notMem_lines, hmore]
      rfl

theorem unbroken_layoutLines {nodes : List Node} (h : ∀ node ∈ nodes, node.Drawable) :
    ∀ line ∈ layoutLines nodes, ∀ c ∈ line, isLineEnd c = false := by
  induction nodes with
  | nil => simp [layoutLines]
  | cons node more ih =>
    have hnode := (h node List.mem_cons_self).unbroken_layout
    cases more with
    | nil => exact hnode
    | cons next later =>
      rw [layoutLines_cons_cons, List.forall_mem_append, List.forall_mem_cons]
      exact ⟨hnode, Text.forall_mem_of_all (by decide),
        ih fun other hother => h other (List.mem_cons_of_mem _ hother)⟩

/-- A graph that can be drawn is read from its layout. -/
theorem readGraph_layoutGraph {nodes : List Node} (h : ∀ node ∈ nodes, node.Drawable) :
    readGraph (layoutGraph nodes) = nodes := by
  have hnodes : (nodes.map Node.lines).map nodeOfLines = nodes := by
    rw [List.map_map]
    exact (List.map_congr_left fun node hnode => (h node hnode).nodeOfLines_lines).trans
      (List.map_id _)
  rw [readGraph, layoutGraph, blocks_join (unbroken_layoutLines h), blockRuns_layoutLines h, hnodes,
    List.filter_eq_self]
  intro node hnode
  simpa [Node.isEmpty] using (h node hnode).named

/-! ## What is read can be drawn -/

theorem drawable_of_readEdge? {edge : Edge} (hunbroken : ∀ c ∈ shown, isLineEnd c = false)
    (h : readEdge? shown = some edge) (hnamed : edge.relation ≠ []) : edge.Drawable := by
  rw [readEdge?, Option.bind_eq_some_iff] at h
  obtain ⟨parts, hparts, hedge⟩ := h
  obtain ⟨-, hopen, hrelation, htargets⟩ := EdgeLine.of_read? hparts
  rw [EdgeLine.edge?] at hedge
  split at hedge
  · cases hedge
  · next hsome =>
    cases hedge
    have hwithin := (Text.trim_isInfix parts.relation).subset
    exact {
      named := hnamed
      trimmed := Text.trim_trim parts.relation
      unclosed := fun hmem => hopen (hwithin hmem)
      aimed := fun hnone => hsome hnone
      solid := allSolid_readTargets parts.targets
      separated := separated_readTargets parts.targets
      unbroken := by
        rw [List.forall_mem_cons]
        exact ⟨fun c hc => hunbroken c (hrelation (hwithin hc)), fun target htarget c hc =>
          hunbroken c (htargets (subset_of_mem_readTargets htarget hc))⟩ }

/-- The lines of a block are trimmed and hold no line end. -/
theorem of_mem_blocks (hrun : run ∈ blocks t) (hshown : shown ∈ run) :
    shown ≠ [] ∧ trim shown = shown ∧ ∀ c ∈ shown, isLineEnd c = false := by
  obtain ⟨hbare, hne⟩ := of_mem_blockRuns hrun hshown
  obtain ⟨line, hline, rfl⟩ := List.mem_map.1 hbare
  exact ⟨hne, trim_undecorate line,
    fun c hc => Text.not_isLineEnd_of_mem_lines hline c (undecorate_subset line hc)⟩

theorem drawable_of_mem_readGraph {node : Node} (hnode : node ∈ readGraph t)
    (hnamed : ∀ edge ∈ node.edges, edge.relation ≠ []) : node.Drawable := by
  obtain ⟨hmem, hsome⟩ := List.mem_filter.1 hnode
  obtain ⟨run, hrun, rfl⟩ := List.mem_map.1 hmem
  have hedges : ∀ edge ∈ edgesOfLines run, edge.Drawable := by
    intro edge hedge
    obtain ⟨shown, hshown, hread⟩ := List.mem_filterMap.1 hedge
    exact drawable_of_readEdge? (of_mem_blocks hrun hshown).2.2 hread (hnamed edge hedge)
  cases hfind : run.find? (!drawsEdge ·) with
  | none =>
    rw [nodeOfLines, nameOfLines, hfind] at hsome
    cases hsome
  | some first =>
    obtain ⟨hne, htrim, hunbroken⟩ := of_mem_blocks hrun (List.mem_of_find?_eq_some hfind)
    have hname : nameOfLines run = first := by
      rw [nameOfLines, hfind]
      exact htrim
    have hplain : drawsEdge first = false := by simpa using List.find?_some hfind
    exact {
      named := by rwa [nodeOfLines, hname]
      trimmed := by rwa [nodeOfLines, hname]
      plain := by rwa [nodeOfLines, hname]
      unbroken := by rwa [nodeOfLines, hname]
      edges := hedges }

/-- The graph of a text is read again from its layout, if no edge of it has a blank relation. -/
theorem readGraph_layoutGraph_readGraph {t : Text}
    (h : ∀ node ∈ readGraph t, ∀ edge ∈ node.edges, allBlank edge.relation = false) :
    readGraph (layoutGraph (readGraph t)) = readGraph t := by
  apply readGraph_layoutGraph
  intro node hnode
  apply drawable_of_mem_readGraph hnode
  intro edge hedge hnil
  have hblank := h node hnode edge hedge
  rw [hnil] at hblank
  cases hblank

/-- A name that begins with a star and draws an arrow, a relation that opens a bracket, targets with
brackets that do not match, and an edge above the name of its node. -/
theorem readGraph_layoutGraph_readGraph_of_odd_names :
    let t := ("** ┌─[a]→ x\n  └─ [ [ → ] ← a), b ,c( ,\n├─[ d]→ f(x, y], ,, B]\n\n" ++
      "├─[ uses ]→C,D\nN\nremark").toList
    let nodes : List Node :=
      [⟨"* ┌─[a]→ x".toList,
          [⟨"[ →".toList, .inbound, ["a), b ,c(".toList]⟩,
            ⟨"d".toList, .outbound, ["f(x, y]".toList, "B]".toList]⟩]⟩,
        ⟨"N".toList, [⟨usesRelation, .outbound, ["C".toList, "D".toList]⟩]⟩]
    (∀ node ∈ readGraph t, ∀ edge ∈ node.edges, allBlank edge.relation = false) ∧
      readGraph t = nodes ∧ readGraph (layoutGraph nodes) = nodes := by
  intro t nodes
  have hread : readGraph t = nodes := by decide +kernel
  have hnamed : ∀ node ∈ readGraph t, ∀ edge ∈ node.edges, allBlank edge.relation = false := by
    rw [hread]
    decide +kernel
  refine ⟨hnamed, hread, ?_⟩
  rw [← hread]
  exact readGraph_layoutGraph_readGraph hnamed

end DocGraph
