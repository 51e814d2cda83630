import DocGraph.Text.Blank

/-!
# Relationship graphs

A graph describes a class and its neighbours. It is a list of nodes; a node has a name and edges,
and an edge names a relation, whether it leads away from its node or to it, and the targets.

Relations are free text. The relation `uses` is the one that is compared with code.
-/

namespace DocGraph

/-- Whether an edge leads away from its node or to it. -/
inductive Direction
  | outbound
  | inbound
deriving DecidableEq, Repr

/-- One edge of a node. -/
structure Edge where
  relation : Text
  direction : Direction
  targets : List Text
deriving DecidableEq, Repr

/-- A node and its edges, in the order in which they are written. -/
structure Node where
  name : Text
  edges : List Edge
deriving DecidableEq, Repr

/-- The relation between a class and the types that it uses. -/
def usesRelation : Text := "uses"

namespace Direction

/-- The arrow that stands for a direction. -/
def arrow : Direction → Char
  | .outbound => '→'
  | .inbound => '←'

/-- The direction that an arrow stands for. -/
def ofArrow? (c : Char) : Option Direction :=
  if c = '→' then some .outbound else if c = '←' then some .inbound else none

@[simp] theorem ofArrow?_arrow (d : Direction) : ofArrow? d.arrow = some d := by
  cases d <;> decide

end Direction

namespace Node

/-- A node without a name and without edges. -/
def empty : Node := ⟨[], []⟩

/-- Whether a node has no name, as where none was written. -/
def isEmpty (node : Node) : Bool := node.name.isEmpty

/-- The edges with a relation, all of them or those of one direction. -/
def edgesWith (node : Node) (relation : Text) (direction : Option Direction) : List Edge :=
  node.edges.filter fun edge =>
    edge.relation == relation && direction.all (edge.direction == ·)

end Node

/-- The text after the last dot, trimmed. -/
def unqualified (name : Text) : Text :=
  Text.trim ((name.reverse.takeWhile (· ≠ '.')).reverse)

end DocGraph
