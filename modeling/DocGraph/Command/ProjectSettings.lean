import DocGraph.Command.Notice
import DocGraph.Config.Load
import DocGraph.Project.Exclusion

/-!
# Settings of a command

A command works on a project folder with the settings that hold there. Folders that are set or asked
for are seen from the project folder. Settings that cannot be loaded end the command with a summary.
-/

namespace DocGraph

open Yaml (Value)

variable [Screen.Pictures] [Yaml.Format]

/-- An item of the exclusion list as it is set. -/
def ExclusionItem.ofValue : Value → ExclusionItem
  | .text t => .pattern t
  | .bytes _ => .bytes
  | _ => .other

namespace Settings

def exclusions (settings : Settings) : Run (List ExclusionItem) :=
  match settings.exclude? with
  | some items => .done (items.map .ofValue)
  | none => .fail .notIterable

end Settings

/-- A folder seen from the project folder: the one asked for, or else the one that is set. -/
def projectFolder (root : Path) (asked : Option Path) (configured : Text) : Path :=
  root.append (asked.getD (Path.ofText configured))

/-- The settings of a project, with a file of settings that may be asked for. -/
def projectSettings (environment : Environment) (root : Path)
    (config : Option Path) : Activity Settings :=
  let loading := Activity.ofRun fun disk =>
    Loader.start disk environment (config.map (·.text)) (some root)
  (loading.andThen fun loader => .done loader.settings).rescue fun
    | .badConfiguration message => some (.failWith message)
    | _ => none

end DocGraph
