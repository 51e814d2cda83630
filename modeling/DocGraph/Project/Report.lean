import DocGraph.Project.Check
import DocGraph.Project.ClassIndex

/-!
# Validating a project

A validation checks the graph of every class. Each type that code uses without its graph saying so
is an error, each type that a graph documents without need is a warning, and both name the place of
the graph. The errors and warnings of a report follow the order of the graphs.

The ignore list of a class is the first one at its location.
-/

namespace DocGraph

/-- How a validation is done. -/
structure ValidationSettings where
  folder : Path
  base : Option Path
  exclude : List ExclusionItem
  tagPrefix : Text

/-- The outcome of a validation. -/
structure Report where
  errors : List Text
  warnings : List Text
  checked : Nat
  skipped : Nat
deriving DecidableEq, Repr

namespace Report

/-- The report where there is nothing to validate. -/
def empty : Report := ⟨[], [], 0, 0⟩

/-- Whether a validation found no error. -/
def passed (report : Report) : Bool := report.errors.isEmpty

/-- A report with that of one more graph behind it. -/
def append (first second : Report) : Report :=
  ⟨first.errors ++ second.errors, first.warnings ++ second.warnings,
    first.checked + second.checked, first.skipped + second.skipped⟩

def place (entry : Entry) : Text := entry.file ++ ':' :: writeInteger entry.line

/-- The message about a type that is used and not documented. -/
def undocumentedMessage (tagPrefix : Text) (entry : Entry) (name : Text) : Text :=
  Text.phrase [place entry, ": Class dependency '", name, "' found but not in graph. Add to ",
    tagText tagPrefix TagType.graph.name, " or ", tagText tagPrefix TagType.graphIgnore.name, "."]

/-- The message about a type that is documented and not used. -/
def unusedMessage (entry : Entry) (name : Text) : Text :=
  Text.phrase [place entry, " Graph documents '", name,
    "' but code does not use it (lenient)."]

/-- What is said of a validation that failed. -/
def failureMessage : Text :=
  "Graph validation failed: dependency found but not documented. See errors above."

/-- The report on one graph. -/
def ofCheck (tagPrefix : Text) (entry : Entry) : Check → Report
  | .skipped => ⟨[], [], 0, 1⟩
  | .compared comparison =>
    ⟨comparison.undocumented.map (undocumentedMessage tagPrefix entry),
      comparison.unused.map (unusedMessage entry), 1, 0⟩

/-- The reports on several graphs as one. -/
def ofAll (reports : List Report) : Report := reports.foldr append empty

end Report

variable [Java.SourceReader]

/-- The content of the ignore list of a class, empty if it has none. -/
def ignoreListAt (entries : List Entry) (location : Text) : Text :=
  match entries.find? fun entry => entry.tagsClass .graphIgnore && entry.location == location with
  | some entry => entry.content
  | none => []

/-- The report on one graph. -/
def reportOn (disk : Disk) (settings : ValidationSettings) (entries : List Entry)
    (project : List Text) (entry : Entry) : Run Report := do
  let result ← check disk settings.base project entry (ignoreListAt entries entry.location)
  let report := Report.ofCheck settings.tagPrefix entry result
  Run.logs (report.warnings.map .unusedDocumentation)
  pure report

/-- Checks the graphs of all classes. -/
def validate (disk : Disk) (settings : ValidationSettings) (entries : List Entry) : Run Report := do
  let graphs := entries.filter (·.tagsClass .graph)
  if graphs.isEmpty then
    Run.logs [.nothingToValidate]
    pure .empty
  else
    let project ← classIndex disk settings.folder settings.exclude
    let reports ← Run.forEach graphs (reportOn disk settings entries project)
    let report := Report.ofAll reports
    Run.logs [.validated report.checked report.skipped report.errors.length report.warnings.length]
    pure report

/-- Checks the graphs of all classes and fails if there is an error. -/
def enforce (disk : Disk) (settings : ValidationSettings) (entries : List Entry) : Run Report := do
  let report ← validate disk settings entries
  if report.passed then pure report
  else
    Run.logs (report.errors.map .undocumentedUse)
    Run.fail (.undocumentedUses report.errors)

end DocGraph
