import DocGraph.Console.Markup

/-!
# Outlines

An outline is a label with outlines below it. It is laid out line by line, with guides in front that
show what belongs to what; a label of several lines keeps its guide beside all of them.
-/

namespace DocGraph

/-- A label and what stands below it. -/
inductive Outline
  | item (label : Text) (below : List Outline)
deriving Repr

namespace Outline

/-- Lines with one text in front of the first and another in front of the others. -/
def guided (first others : Text) : List Text → List Text
  | [] => []
  | line :: rest => (first ++ line) :: rest.map (others ++ ·)

mutual

/-- The outline with the markup of its labels read, unless a label cannot be read. -/
def plain? [Screen.Pictures] : Outline → Option Outline
  | item label below => do
    let label ← Markup.plain? label
    let below ← plainAll? below
    pure (item label below)

/-- Outlines with the markup of their labels read. -/
def plainAll? [Screen.Pictures] : List Outline → Option (List Outline)
  | [] => some []
  | outline :: rest => do
    let outline ← plain? outline
    let rest ← plainAll? rest
    pure (outline :: rest)

end

mutual

def lines : Outline → List Text
  | item label below => Screen.lines label ++ linesBelow below

/-- The lines of the outlines below a label. -/
def linesBelow : List Outline → List Text
  | [] => []
  | outline :: rest =>
    if rest.isEmpty then guided "└── " "    " (lines outline)
    else guided "├── " "│   " (lines outline) ++ linesBelow rest

end

end Outline

end DocGraph
