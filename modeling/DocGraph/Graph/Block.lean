import DocGraph.Graph.EdgeLine
import DocGraph.Text.Lines

/-!
# Blocks of a graph

A graph is written in blocks, with blank lines between them. The first line of a block that is not
an edge names the node, and the edge lines give its edges wherever they stand; all other lines say
nothing. A block that names no node is left out of the graph.
-/

namespace DocGraph

def edgesOfLines (lines : List Text) : List Edge := lines.filterMap readEdge?

/-- The first line of a block that is not an edge. -/
def nameOfLines (lines : List Text) : Text :=
  match lines.find? (!drawsEdge ·) with
  | some line => Text.trim line
  | none => []

/-- The node that the lines of a block describe. -/
def nodeOfLines (lines : List Text) : Node := ⟨nameOfLines lines, edgesOfLines lines⟩

/-- The lines of a text without decoration. -/
def bareLines (t : Text) : List Text := (Text.lines t).map undecorate

/-- Runs of lines that are not empty, in order. -/
def blockRuns : List Text → List (List Text)
  | [] => []
  | [] :: rest => blockRuns rest
  | line :: rest =>
    match rest with
    | [] => [[line]]
    -- the empty line stays in front, where the next call drops it
    | [] :: _ => [line] :: blockRuns rest
    | _ :: _ =>
      -- the next line is not empty, so it begins the first run of the rest
      match blockRuns rest with
      | [] => [[line]]
      | run :: more => (line :: run) :: more

def blocks (t : Text) : List (List Text) := blockRuns (bareLines t)

/-- The node of a text read as a single block, blank lines in it notwithstanding. -/
def readBlock (t : Text) : Node := nodeOfLines ((bareLines t).filter (!·.isEmpty))

/-- The named nodes of a text, one for each block. -/
def readGraph (t : Text) : List Node := ((blocks t).map nodeOfLines).filter (!·.isEmpty)

/-- The edge lines of a graph that name no target and so add no edge, in the order of reading. -/
def targetlessLines (t : Text) : List Text :=
  (blocks t).flatten.filter fun line => drawsEdge line && (readEdge? line).isNone

end DocGraph
