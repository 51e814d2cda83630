import DocGraph.Graph.Suggested
import DocGraph.Project.Check
import DocGraph.Project.ClassIndex
import DocGraph.Project.DiskRun

/-!
# Suggesting graphs

For every type that the source files of a project declare, a suggested graph is written into a file
named for the type. Of two types with one name, the file of the later one stays.

What is to be done is worked out as a plan before the first file is written. A file that cannot be
written ends the run, and those written before it stay.
-/

namespace DocGraph

open Java (usedTypes)

variable [Java.SourceReader]

/-- A file to be written: the type that it is named for and the types that its code uses. -/
structure Suggestion where
  type : Text
  used : List Text
deriving DecidableEq, Repr

namespace Suggestion

def ofDeclaration (project : List Text) (declaration : Java.Tree) : Suggestion :=
  ⟨declaration.declaredName, usedTypes declaration project⟩

def fileName (suggestion : Suggestion) : Text := suggestion.type ++ ".txt".toList

def text (suggestion : Suggestion) : Text :=
  suggestionHeader ++ suggestedGraph suggestion.type suggestion.used

end Suggestion

/-- A step of a plan. -/
inductive PlanStep
  | report (events : List Event)
  | write (suggestion : Suggestion)
  | stop (fault : Fault)

/-- The named declarations of a source file. -/
def namedTypes (source : SourceFile) : List Java.Tree :=
  (source.tree.root.typeVisits.map (·.node)).filter (!·.declaredName.isEmpty)

def planType (project : List Text) (declaration : Java.Tree) : List PlanStep :=
  let suggestion := Suggestion.ofDeclaration project declaration
  [.report [usesEvent declaration suggestion.used], .write suggestion]

/-- The steps for a file that a listing finds. -/
def planFile (disk : Disk) (project : List Text) (file : Path) : List PlanStep :=
  match disk.readSourceFile file with
  | .ok source => .report source.events :: (namedTypes source).flatMap (planType project)
  | .error e => [.report [.fileWithoutSuggestion file e]]

def planStep (disk : Disk) (project : List Text) (step : ListingStep) : List PlanStep :=
  let found := step.found?
  .report found.log ::
    match found.outcome with
    | .ok (some file) => planFile disk project file
    | .ok none => []
    | .error fault => [.stop fault]

/-- The plan for the source files below a folder. -/
def plan (disk : Disk) (folder : Path) (exclude : List ExclusionItem) (project : List Text) :
    List PlanStep :=
  (listing disk folder javaEnding exclude).flatMap (planStep disk project)

/-- Carries out a plan. The result is the files written, in order. -/
def carryOut (output : Path) : List PlanStep → Disk → DiskRun (List Path)
  | [], disk => .reading disk (.done [])
  | .report events :: rest, disk =>
    (DiskRun.reading disk (.logs events)).andThen fun disk _ => carryOut output rest disk
  | .write suggestion :: rest, disk =>
    let file := output.child suggestion.fileName
    (DiskRun.write disk file (Utf8.encode suggestion.text)).andThen fun disk _ =>
      (carryOut output rest disk).andThen fun disk files =>
        .reading disk (.done (file :: files))
  | .stop fault :: _, disk => .reading disk (.fail fault)

/-- Writes the suggested graphs of a project, if its source folder exists. -/
def suggest (disk : Disk) (folder output : Path) (exclude : List ExclusionItem) :
    DiskRun (List Path) :=
  (DiskRun.reading disk (.ofFiles (disk.isFolder folder))).andThen fun disk isFolder =>
    if isFolder then
      -- the index comes first, so a fault in it leaves no folder behind
      (DiskRun.reading disk (classIndex disk folder exclude)).andThen fun disk project =>
        (DiskRun.makeFolders disk output).andThen fun disk _ =>
          (carryOut output (plan disk folder exclude project) disk).andThen fun disk files =>
            .reading disk do
              Run.logs [.suggested files.length output]
              pure files
    else .reading disk do
      Run.logs [.nothingToSuggest folder]
      pure []

end DocGraph
