import DocGraph.Graph.Basic

/-!
# Targets of an edge

The targets of an edge are separated by commas. A comma inside brackets belongs to its target, so
`W:orders(id,total), Cache[a,b]` names two. All three kinds of brackets count alike: a comma
separates where as many brackets have been opened as closed.
-/

namespace DocGraph

/-- How a character changes the number of open brackets. -/
def bracketStep (c : Char) : Int :=
  if c ∈ ['(', '[', '\x7b'] then 1 else if c ∈ [')', ']', '\x7d'] then -1 else 0

/-- The pieces between the commas that stand outside brackets, given the number of brackets open at
the start. -/
def targetPieces (depth : Int) : Text → List Text
  | [] => [[]]
  | c :: rest =>
    -- a closing bracket without an opening one makes the depth negative, where no comma separates
    if c = ',' ∧ depth = 0 then [] :: targetPieces depth rest
    else
      match targetPieces (depth + bracketStep c) rest with
      | [] => [[c]]
      | piece :: more => (c :: piece) :: more

/-- The targets in a text: its trimmed pieces, without those that are blank. -/
def readTargets (t : Text) : List Text :=
  ((targetPieces 0 t).map Text.trim).filter (!·.isEmpty)

end DocGraph
