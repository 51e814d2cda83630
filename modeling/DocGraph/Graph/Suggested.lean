import DocGraph.Graph.Basic
import DocGraph.Text.Basic

/-!
# Suggested graphs

A suggested graph is a block that names a class and lists the types that its code uses, in code
point order, for the author to copy into the comment of the class. It ends with a hint at the other
relations. The file that holds it opens with a header that says so.
-/

namespace DocGraph

/-- The lines above the block in a file. -/
def suggestionHeader : Text :=
  ["# Suggested graph for this class.",
    "# Review and copy the block below into the class-level Javadoc graph tag.",
    "# Add [calls], [db], [events], [by] as needed.",
    ""].flatMap fun line : String => line.toList ++ ['\n']

/-- The line with the used types. Where there are none it is no edge line. -/
def suggestedUsesLine (used : List Text) : Text :=
  match used with
  | [] => "  # ├─[uses]→ (none detected)"
  | _ => "  ├─[uses]→ ".toList ++ Text.join ", " (Text.sort used)

/-- The line that names further relations. -/
def suggestionHint : Text :=
  "  # Add more edges: [calls], [db], [events], [by]←, [external], [config]"

/-- The suggested block of a class, given the types it uses, each once. -/
def suggestedGraph (name : Text) (used : List Text) : Text :=
  [name, suggestedUsesLine used, suggestionHint].flatMap (· ++ ['\n'])

end DocGraph
