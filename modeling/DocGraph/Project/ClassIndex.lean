import DocGraph.Java.Walk
import DocGraph.Project.SourceFile

/-!
# Class index

The class index of a project holds the name of every type that its source files declare, each once.
A file that cannot be read adds nothing to it.
-/

namespace DocGraph

variable [Java.SourceReader]

/-- The names of the types below a folder. -/
def classIndex (disk : Disk) (folder : Path) (exclude : List ExclusionItem) : Run (List Text) := do
  let declared ← visitSources disk folder exclude .fileNotIndexed fun source =>
    pure source.tree.root.declaredTypeNames
  let names := declared.flatten.eraseDups
  Run.logs [.indexed names.length declared.length folder]
  pure names

end DocGraph
