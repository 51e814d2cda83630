import DocGraph.Files.Disk
import DocGraph.Java.SourceReader
import DocGraph.Project.Listing
import DocGraph.Project.Run

/-!
# Source files

A file is read as UTF-8 with its line ends unified. Where it is not well-formed, its faults are
replaced, its line ends are kept as they are, and that it happened is reported.

A source file is a file together with its syntax tree. The files of a project are visited in the
order of their listing, and whatever the listing met on the way is reported at that point.
-/

namespace DocGraph

open Java (SourceReader SourceTree readSource)

variable [SourceReader]

/-- The text of a file and whether faults of its encoding were replaced. -/
structure FileText where
  text : Text
  mended : Bool
deriving DecidableEq, Repr

/-- The text that bytes stand for. -/
def FileText.ofBytes (bytes : Bytes) : FileText :=
  match Utf8.decode? bytes with
  | some t => ⟨Text.unifyLineEnds t, false⟩
  | none => ⟨Utf8.decodeReplacing bytes, true⟩

/-- A source file that could be read. -/
structure SourceFile where
  path : Path
  mended : Bool
  tree : SourceTree

namespace Disk

def readText (disk : Disk) (path : Path) : Except FileError FileText :=
  (disk.read path).map FileText.ofBytes

def readSourceFile (disk : Disk) (path : Path) : Except FileError SourceFile :=
  (disk.readText path).map fun file => ⟨path, file.mended, readSource file.text⟩

/-- The path at which a file named by an entry is found: as it is, else below a folder. -/
def locate (disk : Disk) (base : Option Path) (file : Path) : Except FileError (Option Path) := do
  if ← disk.isFile file then pure (some file)
  else
    match base with
    | some base => if ← disk.isFile (base.append file) then pure (some (base.append file)) else pure none
    | none => pure none

end Disk

/-- What is reported of a file of mended text. -/
def mendedEvents (path : Path) (mended : Bool) : List Event :=
  if mended then [.undecodable path] else []

namespace SourceFile

/-- What is reported when a source file is read. -/
def events (source : SourceFile) : List Event :=
  mendedEvents source.path source.mended ++
    (if source.tree.faulty then [.syntaxFaults source.path] else [])

end SourceFile

/-- The text of a file, as a run. -/
def fileText (disk : Disk) (path : Path) : Run Text := do
  let file ← Run.ofFiles (disk.readText path)
  Run.logs (mendedEvents path file.mended)
  pure file.text

/-- The file that a step of a listing finds. What else it meets is reported or ends the run. -/
def ListingStep.found? : ListingStep → Run (Option Path)
  | .missingFolder folder => do
    Run.logs [.sourceFolderMissing folder]
    pure none
  | .unreachable error => Run.fail (.file error)
  | .badEnding => Run.fail .badEnding
  | .excluded file => do
    Run.logs [.fileExcluded file]
    pure none
  | .badExclusion fault => Run.fail (.badExclusion fault)
  | .found file => pure (some file)

/-- The paths of the files that a listing finds. -/
def sourcePaths (steps : List ListingStep) : Run (List Path) := do
  let found ← Run.forEach steps ListingStep.found?
  pure (found.filterMap id)

/-- A visit to a file. One that cannot be read is reported and has no result. -/
def visitFile {β : Type} (disk : Disk) (onError : Path → FileError → Event)
    (onFile : SourceFile → Run β) (file : Path) : Run (Option β) :=
  match disk.readSourceFile file with
  | .ok source => do
    Run.logs source.events
    let result ← onFile source
    pure (some result)
  | .error e => do
    Run.logs [onError file e]
    pure none

/-- The results of visiting the source files of the language below a folder. -/
def visitSources {β : Type} (disk : Disk) (folder : Path) (exclude : List ExclusionItem)
    (onError : Path → FileError → Event) (onFile : SourceFile → Run β) : Run (List β) := do
  let results ← Run.forEach (listing disk folder javaEnding exclude) fun step => do
    match ← step.found? with
    | some file => visitFile disk onError onFile file
    | none => pure none
  pure (results.filterMap id)

end DocGraph
