import DocGraph.Graph.Target

/-!
# Lines of a graph

A line may carry the decoration of a documentation comment: blanks, one star, blanks. `undecorate`
takes it off. What remains is an edge line if it reads `├─[relation]→ targets`, with `└` in place of
`├` and `←` in place of `→` allowed and blanks between the parts. `EdgeLine.read?` takes such a line
apart and `EdgeLine.edge?` makes an edge of it, unless it names no target.
-/

namespace DocGraph

/-- A line without the decoration of a documentation comment. -/
def undecorate (line : Text) : Text :=
  match Text.trim line with
  | '*' :: rest => Text.trim rest
  | bare => bare

/-- The parts of an edge line as they are written. -/
structure EdgeLine where
  relation : Text
  direction : Direction
  targets : Text
deriving DecidableEq, Repr

namespace EdgeLine

/-- The relation between brackets and what follows the closing one. -/
def readRelation? : Text → Option (Text × Text)
  | [] => none
  | c :: rest =>
    if c = ']' then some ([], rest)
    else (readRelation? rest).map fun (relation, after) => (c :: relation, after)

/-- The targets behind an arrow. Leading blanks are not part of them, unless nothing else is there:
then the last blank is, which must not be a line feed. -/
def targetsText? (t : Text) : Option Text :=
  match Text.trimStart t with
  | [] =>
    match t.getLast? with
    | some c => if c = '\n' then none else some [c]
    | none => none
  | targets => if '\n' ∈ targets then none else some targets

/-- Takes an edge line apart. -/
def read? (line : Text) : Option EdgeLine :=
  match Text.trimStart line with
  | corner :: '─' :: rest =>
    -- the second corner is meant for the last edge of a node, but nothing depends on it
    if corner = '├' ∨ corner = '└' then
      match Text.trimStart rest with
      | '[' :: rest => do
        let (relation, rest) ← readRelation? rest
        if relation.isEmpty then none
        else
          match Text.trimStart rest with
          | [] => none
          | c :: rest => do
            let direction ← Direction.ofArrow? c
            let targets ← targetsText? rest
            pure ⟨relation, direction, targets⟩
      | _ => none
    else none
  | _ => none

/-- The edge that a line describes, if it names a target. -/
def edge? (line : EdgeLine) : Option Edge :=
  match readTargets line.targets with
  | [] => none
  | targets => some ⟨Text.trim line.relation, line.direction, targets⟩

end EdgeLine

/-- Whether a line has the shape of an edge. -/
def drawsEdge (line : Text) : Bool := (EdgeLine.read? line).isSome

/-- The edge on a line, if it has the shape of one and names a target. -/
def readEdge? (line : Text) : Option Edge := (EdgeLine.read? line).bind EdgeLine.edge?

end DocGraph
