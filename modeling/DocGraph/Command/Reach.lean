import DocGraph.Command.Invocation
import DocGraph.Command.ProjectSettings

/-!
# The reach of a command

What a command may look at is known from its arguments, from the places where settings are kept,
and, once these can be read, from the settings themselves. A disk that holds this much answers the
command like one that holds everything.
-/

namespace DocGraph

variable [Yaml.Format]

/-- What a command may look at: single places, and folders with all that is in them. -/
structure Reach where
  places : List Path
  folders : List Path

namespace Reach

/-- What one or the other of two commands may look at. -/
def append (first second : Reach) : Reach :=
  ⟨first.places ++ second.places, first.folders ++ second.folders⟩

end Reach

namespace CommandKind

/-- The places that the arguments of a command name: the values of its options and its operand. -/
def namedPlaces (kind : CommandKind) (arguments : List Text) : List Path :=
  match readArguments kind.rules arguments with
  | some arguments =>
    (arguments.options.map (·.2) ++ (kind.operand? arguments.operands).toList).map Path.ofText
  | none => []

end CommandKind

/-- A folder of sources, and the folder that its files may be looked for in when their names are
seen from the working directory. -/
def sourceFolders (root folder : Path) : List Path := folder :: (folder.relativeTo? root).toList

/-- The folders of a project: those asked for, or else those that are set. -/
def projectFolders (root : Path) (sources output : Option Path) (settings : Settings) : List Path :=
  projectFolder root output settings.outputFolder ::
    sourceFolders root (projectFolder root sources settings.sourceFolder)

/-- What a command may look at in a project, as far as its settings can be loaded. -/
def projectReach (disk : Disk) (environment : Environment) (folder : Path)
    (config sources output : Option Path) : Reach :=
  let root := folder.resolve disk.cwd
  let files := candidateFiles environment (some root) (Path.ofText environment.home)
  match (Loader.start disk environment (config.map (·.text)) (some root)).outcome with
  | .ok loader => ⟨files, projectFolders root sources output loader.settings⟩
  | .error _ => ⟨files, []⟩

namespace Command

/-- What a command may look at, as far as a disk tells. -/
def reach (disk : Disk) (environment : Environment) : Command → Reach
  | validate folder config sources => projectReach disk environment folder config sources none
  | suggest folder config sources output =>
    projectReach disk environment folder config sources output
  | display _ _ _ => ⟨[], []⟩
  | initialise folder _ => ⟨[folder.child projectFileName], []⟩

end Command

/-- What the command that arguments ask for may look at, as far as a disk tells. -/
def reachOf (disk : Disk) (environment : Environment) (arguments : List Text) : Reach :=
  let named := (arguments.head?.bind CommandKind.ofWord?).elim []
    fun kind => kind.namedPlaces arguments.tail
  let further :=
    match Invocation.ofArguments disk arguments with
    | .run command _ => command.reach disk environment
    | _ => ⟨[], []⟩
  Reach.append ⟨Path.ofRoute disk.cwd :: named, []⟩ further

end DocGraph
