import DocGraph.Javadoc.Source
import DocGraph.Project.SourceFile

/-!
# Scanning a project

A scan collects the documentation entries of all source files below a folder: those of types before
those of methods, and within each group in the order of the files and of each file. An entry names
its file relative to a base folder where it lies below it.
-/

namespace DocGraph

variable [Java.SourceReader]

/-- The path of a file as its entries name it: relative to the base folder where it lies below it. A
base folder with a null character in its path has nothing below it. -/
def recordedPath (disk : Disk) (base : Option Path) (file : Path) : Path :=
  match base with
  | none => file
  | some base =>
    if base.names.any (·.elem '\x00') then file
    else ((file.resolve disk.cwd).relativeTo? (base.resolve disk.cwd)).getD file

/-- The name of a file in its entries. -/
def displayName (disk : Disk) (base : Option Path) (file : Path) : Text :=
  (recordedPath disk base file).text

/-- Entries of types before entries of methods. -/
def typesFirst (entries : List Entry) : List Entry :=
  entries.filter (·.level == .architectural) ++ entries.filter (·.level != .architectural)

/-- The documentation entries below a folder. -/
def scan (disk : Disk) (folder : Path) (tagPrefix : Text) (exclude : List ExclusionItem)
    (base : Option Path) : Run (List Entry) := do
  let found ← visitSources disk folder exclude .fileNotScanned fun source =>
    pure (sourceEntries tagPrefix (displayName disk base source.path) source.tree.root)
  let entries := typesFirst found.flatten
  Run.logs [.scanned entries.length folder]
  pure entries

end DocGraph
