import DocGraph.Graph.Block

/-!
# Writing graphs

`Edge.label` is an edge as it is shown to a reader. `layoutGraph` writes the nodes of a graph as the
lines of a documentation comment, a bare star between each two nodes.
-/

namespace DocGraph

namespace Edge

/-- An edge as it is shown: relation, arrow and targets. -/
def label (edge : Edge) : Text :=
  '[' :: edge.relation ++ [']', edge.direction.arrow, ' '] ++ Text.join ", " edge.targets

end Edge

namespace Node

/-- The lines of a node in a documentation comment. -/
def layout (node : Node) : List Text :=
  (" * ".toList ++ node.name) :: node.edges.map fun edge => " *   ├─".toList ++ edge.label

end Node

/-- The lines of a graph in a documentation comment. -/
def layoutLines : List Node → List Text
  | [] => []
  | [node] => node.layout
  | node :: more => node.layout ++ " *".toList :: layoutLines more

/-- A graph as the text of a documentation comment. -/
def layoutGraph (nodes : List Node) : Text := Text.join ['\n'] (layoutLines nodes)

end DocGraph
