import DocGraph.Command.ProjectSettings
import DocGraph.Project.Suggestion

/-!
# The command that suggests graphs

The suggested graphs of a project are written into its output folder. A file error ends the command
with a notice; the files written before it stay.
-/

namespace DocGraph

variable [Screen.Pictures] [Java.SourceReader] [Yaml.Format]

/-- The notice of suggested graphs that were written. -/
def writtenNotice (graphs : Nat) (output : Path) : Text :=
  Text.phrase ["[green]Wrote ", writeNatural graphs, " suggested graph(s) to ", output.text]

/-- Writes the suggested graphs of a project. -/
def suggestForProject (environment : Environment) (folder : Path)
    (config sources output : Option Path) : Activity Unit := do
  let root := folder.resolve (← Activity.disk).cwd
  let settings ← projectSettings environment root config
  let sources := projectFolder root sources settings.sourceFolder
  let output := projectFolder root output settings.outputFolder
  let exclude ← Activity.ofRun fun _ => settings.exclusions
  let written ← (Activity.ofDiskRun fun disk => suggest disk sources output exclude).orFileNotice
    fileNotice
  Activity.say (writtenNotice written.length output)

end DocGraph
