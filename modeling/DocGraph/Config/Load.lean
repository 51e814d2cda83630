import DocGraph.Config.InPlace
import DocGraph.Files.Disk
import DocGraph.Project.Run
import DocGraph.Yaml.Format

/-!
# Loading settings

Settings come in three layers: the defaults, one file, and the environment. The file is the one
asked for, or else the first that exists of the file in the project, the one in the folder for the
settings of the user, and the one in the home of the user.

If the file cannot be used, loading fails. The choice of a file outlives a failure: a loader that is
asked again reads the same file. It changes its settings in place, from the defaults on.
-/

namespace DocGraph

open Yaml (Format Value)

variable [Format]

/-- What a run finds around it: variables with their values, and the folder for the settings of the
user. -/
structure Environment where
  bindings : List (Text × Text)
  userFolder : Path

namespace Environment

def valueOf? (environment : Environment) (name : Text) : Option Text :=
  (environment.bindings.find? (·.1 = name)).map (·.2)

/-- The home of the administrator. -/
def rootHome : Text := "/root"

def home (environment : Environment) : Text :=
  let t := (environment.valueOf? "HOME").getD rootHome
  let bare := (t.reverse.dropWhile (· = '/')).reverse
  if bare.isEmpty then ['/'] else bare

/-- The folder for the settings of the user that the variables tell. -/
def settingsFolder (environment : Environment) : Path :=
  let told := (environment.valueOf? "XDG_CONFIG_HOME").getD []
  if told.isEmpty then (Path.ofText environment.home).child ".config" else Path.ofText told

/-- The home that a name with a tilde in front stands for. The only other user known is the
administrator. -/
def homeOf? (environment : Environment) (name : Text) : Option Text :=
  if name = ['~'] then
    if environment.home.head? = some '~' then none else some environment.home
  else if name = "~root".toList then some rootHome
  else none

/-- The path with a home in place of a tilde at its start. -/
def expandHome? (environment : Environment) (path : Path) : Option Path :=
  match path.anchor, path.names with
  | .here, ('~' :: user) :: rest =>
    (environment.homeOf? ('~' :: user)).map fun home =>
      (Path.ofText home).append ⟨.here, rest⟩
  | _, _ => some path

end Environment

def projectFileName : Text := ".graphcheck.yml"

/-- The files that are looked for, in order. -/
def candidateFiles (environment : Environment) (root : Option Path) (home : Path) : List Path :=
  [match root with
    | some root => root.child projectFileName
    | none => Path.ofText projectFileName,
    (environment.userFolder.child "graphcheck").child "config.yml",
    (home.child ".graphcheck").child "config.yml"]

/-- The first of some files that exists. -/
def firstFile (disk : Disk) : List Path → Run (Option Path)
  | [] => .done none
  | file :: rest => do
    -- a folder of that name is chosen too, and cannot be read later
    if ← Run.ofFiles (disk.holds file) then pure (some file) else firstFile disk rest

/-- A path with a home in place of a tilde, as a run. -/
def expandHome (environment : Environment) (path : Path) : Run Path :=
  match environment.expandHome? path with
  | some path => .done path
  | none => .fail .homeUnknown

/-- The file to be read. One that is asked for is chosen even if it does not exist. -/
def chooseFile (disk : Disk) (environment : Environment) (asked : Option Text)
    (root : Option Path) : Run (Option Path) :=
  let named := asked.getD []
  if named.isEmpty then do
    let home ← expandHome environment (Path.ofText ['~'])
    firstFile disk (candidateFiles environment root home)
  else do
    let path ← expandHome environment (Path.ofText named)
    let file := path.resolve disk.cwd
    if !(← Run.ofFiles (disk.holds file)) then Run.logs [.configurationMissing file]
    pure (some file)

/-- The message about a file that cannot be loaded. -/
def loadMessage (file : Path) (reason : Text) : Text :=
  Text.phrase ["Error loading configuration from ", file.text, ": ", reason]

/-- The end of a load that fails for a reason worth logging. -/
def failLoad {α : Type} (file : Path) (reason : Text) : Run α :=
  ⟨[.configurationFailed (loadMessage file reason)],
    .error (.badConfiguration (loadMessage file reason))⟩

def readValue (disk : Disk) (file : Path) : Run Value :=
  match disk.read file with
  | .error e => failLoad file e.message
  | .ok bytes =>
    match Utf8.decode? bytes with
    | none => .fail .undecodableConfiguration
    | some t =>
      match Format.value (Text.unifyLineEnds t) with
      | .ok value => .done value
      | .error .malformed =>
        failLoad file (Format.problem file.text (Text.unifyLineEnds t))
      -- a scalar whose form is right and whose value is not is a fault that nothing is logged of
      | .error fault => .fail (.badScalar fault)

/-- The layer of settings in a file, empty if the file says nothing. -/
def readLayer (disk : Disk) (file : Path) : Run Settings := do
  match ← readValue disk file with
  | .mapping _ entries => pure entries
  | value =>
    -- an empty file, and any value that does not count as true, adds no settings
    if value.isTrue then
      .fail (.badConfiguration
        (Text.phrase ["Configuration in ", file.text, " must be a mapping"]))
    else pure []

/-- The settings of the defaults and a file. -/
def loadFile (disk : Disk) (file : Option Path) : Run Settings :=
  match file with
  | none => .done .default
  | some file => do
    if ← Run.ofFiles (disk.holds file) then
      let layer ← readLayer disk file
      Run.logs [.configurationLoaded file]
      pure (Settings.merge .default layer)
    else pure .default

/-- The settings of all three layers. -/
def loadSettings (disk : Disk) (environment : Environment) (file : Option Path) : Run Settings := do
  let settings ← loadFile disk file
  let changes := Override.all environment.bindings
  Run.logs (changes.map fun change => .overrideApplied change.origin)
  pure (settings.overrideAll changes)

/-- A file that was chosen and the settings that were loaded last. -/
structure Loader where
  file : Option Path
  settings : Settings

namespace Loader

/-- Lays a file over settings in place. -/
def mergeFile (disk : Disk) (file : Option Path) (settings : Settings) : SettingsRun Unit :=
  match file with
  | none => .reading settings (.done ())
  | some file =>
    (SettingsRun.reading settings (Run.ofFiles (disk.holds file))).andThen fun settings found =>
      if found then
        (SettingsRun.reading settings (readLayer disk file)).andThen fun settings layer =>
          (Settings.mergeAt [] layer settings).andThen fun settings _ =>
            .reading settings (Run.logs [.configurationLoaded file])
      else .reading settings (.done ())

/-- Loads the settings again. They are replaced by the defaults before anything can fail, and the
file and the environment change those. -/
def reload (disk : Disk) (environment : Environment) (loader : Loader) : Loader × Run Unit :=
  let result := (mergeFile disk loader.file .default).andThen fun settings _ =>
    settings.applyVariables environment.bindings
  ({ loader with settings := result.settings }, result.run)

/-- Chooses a file and loads the settings. -/
def start (disk : Disk) (environment : Environment) (asked : Option Text) (root : Option Path) :
    Run Loader := do
  let file ← chooseFile disk environment asked root
  let settings ← loadSettings disk environment file
  pure ⟨file, settings⟩

end Loader

end DocGraph
