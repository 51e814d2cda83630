import DocGraph.Graph.Block

/-!
# Documented uses

What a graph documents about one class is on one node: the one with the name of the class, or the
first one if there is none. The documented uses are the simple names of the targets of its outbound
edges with the relation `uses`, each once, in the order in which they are written.
-/

namespace DocGraph

/-- The node of a class: the first with its name, else the first of all. An empty name is the name
of no node. -/
def nodeNamed (nodes : List Node) (name : Text) : Option Node :=
  if name.isEmpty then nodes.head? else (nodes.find? (·.name == name)).or nodes.head?

namespace Node

/-- The targets of the outbound edges with the relation `uses`. -/
def usesTargets (node : Node) : List Text :=
  (node.edgesWith usesRelation (some .outbound)).flatMap Edge.targets

/-- The simple names of those targets, each once. -/
def uses (node : Node) : List Text :=
  ((node.usesTargets.map unqualified).filter (!·.isEmpty)).eraseDups

end Node

/-- The simple names that a graph documents as used by a class. -/
def documentedUses (content : Text) (name : Text) : List Text :=
  match nodeNamed (readGraph content) name with
  | some node => node.uses
  | none => []

end DocGraph
