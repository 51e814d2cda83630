import DocGraph.Graph.Uses
import DocGraph.Java.Dependencies
import DocGraph.Javadoc.Entry
import DocGraph.Project.SourceFile

/-!
# Checking one graph

A graph is checked against the declaration of its class: the types that the code uses against the
types that the graph documents. A type that the ignore list of the class names counts for neither.

Where the file of the class cannot be found or read, or does not declare the class, there is nothing
to check.
-/

namespace DocGraph

open Java (usedTypes)

variable [Java.SourceReader]

/-- What a graph is checked against: the used types in code point order, the documented ones in the
order of the graph, and those to be ignored. -/
structure Comparison where
  used : List Text
  documented : List Text
  ignored : List Text
deriving DecidableEq, Repr

/-- What comes of checking one graph. -/
inductive Check
  | skipped
  | compared (comparison : Comparison)
deriving DecidableEq, Repr

namespace Comparison

/-- The types that are used and neither documented nor ignored. -/
def undocumented (comparison : Comparison) : List Text :=
  comparison.used.filter fun name =>
    !comparison.documented.elem name && !comparison.ignored.elem name

/-- The types that are documented and neither used nor ignored. -/
def unused (comparison : Comparison) : List Text :=
  comparison.documented.filter fun name =>
    !comparison.used.elem name && !comparison.ignored.elem name

end Comparison

/-- What is reported of the types that a declaration uses. -/
def usesEvent (declaration : Java.Tree) (used : List Text) : Event :=
  .usesFound declaration.declaredName (Text.sort used)

/-- Checks a graph against a declaration. -/
def compare (entry : Entry) (ignoreList : Text) (project : List Text) (name : Text)
    (declaration : Java.Tree) : Run Comparison := do
  let used := usedTypes declaration project
  Run.logs [usesEvent declaration used]
  -- such edges are lost to the comparison, so at least they are reported
  Run.logs ((targetlessLines entry.content).map .edgeWithoutTargets)
  pure ⟨Text.sort used, documentedUses entry.content name, ignoredNames ignoreList⟩

/-- Checks a graph against the declaration of its class in a file. -/
def checkIn (disk : Disk) (entry : Entry) (ignoreList : Text) (project : List Text) (file : Path) :
    Run Check :=
  let name := unqualified entry.location
  match disk.readSourceFile file with
  | .error e => do
    Run.logs [.entryFileUnreadable entry.location file e]
    pure .skipped
  | .ok source => do
    Run.logs source.events
    match source.tree.root.findType? name with
    | none => do
      Run.logs [.entryTypeMissing entry.location name file]
      pure .skipped
    | some declaration => do
      let comparison ← compare entry ignoreList project name declaration
      pure (.compared comparison)

/-- Checks a graph, looking for its file as it is and then below a folder. -/
def check (disk : Disk) (base : Option Path) (project : List Text) (entry : Entry)
    (ignoreList : Text) : Run Check := do
  match ← Run.ofFiles (disk.locate base (Path.ofText entry.file)) with
  | none => do
    Run.logs [.entryFileMissing entry.location entry.file]
    pure .skipped
  | some file => checkIn disk entry ignoreList project file

end DocGraph
