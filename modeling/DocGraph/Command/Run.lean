import DocGraph.Command.Initialise
import DocGraph.Command.Invocation
import DocGraph.Command.Show
import DocGraph.Command.Suggest
import DocGraph.Command.Validate
import DocGraph.Proofs.Java.Outline
import DocGraph.Proofs.Yaml.Unreadable

/-!
# Running a command

A run of a command gives its output, its log and how it ended. Events that are not urgent are in the
log only if the command was asked to be verbose.

What the pictures of the screen are and how sources and settings are read is left open. The readers
at hand, with the proofs that they can be relied on, are the outline of a source and `Value.load`.
-/

namespace DocGraph

variable [Screen.Pictures] [Java.SourceReader] [Yaml.Format]

namespace Command

/-- What a command does. -/
def activity (environment : Environment) : Command → Activity Unit
  | validate folder config sources => validateProject environment folder config sources
  | suggest folder config sources output => suggestForProject environment folder config sources output
  | display file tagPrefix asJson =>
    let asked := tagPrefix.getD []
    showGraphs file (if asked.isEmpty then Settings.defaultPrefix else asked) asJson
  | initialise folder overwrite => initialiseProject folder overwrite

end Command

/-- The text that help gives. -/
def helpText : Text :=
  Text.phrase ["Commands:\n",
    "  validate [--config FILE] [--source-dir FOLDER] [--verbose] [FOLDER]\n",
    "  suggest [--output FOLDER] [--config FILE] [--source-dir FOLDER] [--verbose] [FOLDER]\n",
    "  show [--prefix PREFIX] [--json] [--verbose] FILE\n",
    "  init [--force] [FOLDER]\n"]

/-- The run of a command. -/
structure CommandRun where
  disk : Disk
  log : List Event
  output : Text
  ending : Ending

namespace CommandRun

def shownEvents (verbose : Bool) (log : List Event) : List Event :=
  log.filter fun event => verbose || event.level.isUrgent

/-- The run that leaves an outcome. One that ends with its last activity has succeeded. -/
def ofOutcome (verbose : Bool) (outcome : Outcome Unit) : CommandRun :=
  ⟨outcome.disk, shownEvents verbose outcome.log, outcome.output,
    match outcome.result with
    | .ok () => .exit 0
    | .error ending => ending⟩

/-- The exit code of arguments that are refused. -/
def refusedCode : Nat := 2

end CommandRun

/-- Runs the command that arguments ask for. -/
def runCommand (environment : Environment) (arguments : List Text) (disk : Disk) :
    CommandRun :=
  match Invocation.ofArguments disk arguments with
  | .help => ⟨disk, [], helpText, .exit 0⟩
  | .refused => ⟨disk, [], [], .exit CommandRun.refusedCode⟩
  | .unusablePath path => ⟨disk, [], [], .fault (.file ⟨.nulInPath, path⟩)⟩
  | .run command verbose => .ofOutcome verbose (command.activity environment disk)

end DocGraph
