import DocGraph.Command.ProjectSettings
import DocGraph.Project.Report
import DocGraph.Project.Scan

/-!
# The command that validates a project

The graphs in the sources of a project are scanned and validated. Types that are used and not
documented make the command fail, with a summary of all of them; other findings are warnings.
-/

namespace DocGraph

variable [Screen.Pictures] [Java.SourceReader] [Yaml.Format]

/-- The notice of a validation that passed. -/
def passedNotice (report : Report) : Text :=
  Text.phrase ["[green]Graph validation passed (", writeNatural report.checked,
    " graph(s) checked, ", writeNatural report.skipped, " skipped)."]

/-- The message that sums up the errors of a validation. -/
def errorsMessage (errors : List Text) : Text :=
  Text.join ['\n'] (errors ++ [[], Report.failureMessage])

/-- Validates the sources below a folder and tells of the outcome. -/
def validateSources (root folder : Path) (settings : Settings) :
    Activity Unit := do
  let exclude ← Activity.ofRun fun _ => settings.exclusions
  let tagPrefix := settings.tagPrefix
  Activity.report [.validating folder tagPrefix]
  let entries ← Activity.ofRun fun disk => scan disk folder tagPrefix exclude (some root)
  let checking := Activity.ofRun fun disk =>
    enforce disk ⟨folder, some root, exclude, tagPrefix⟩ entries
  let report ← checking.rescue fun
    | .undocumentedUses errors => some (.failWith (errorsMessage errors))
    | _ => none
  if !report.warnings.isEmpty then
    Activity.summarise "Warning Summary" (Text.join ['\n'] report.warnings)
  Activity.say (passedNotice report)

/-- Validates a project. -/
def validateProject (environment : Environment) (folder : Path)
    (config sources : Option Path) : Activity Unit := do
  let root := folder.resolve (← Activity.disk).cwd
  let settings ← projectSettings environment root config
  if settings.validates then
    let sources := projectFolder root sources settings.sourceFolder
    if ← Activity.ofRun fun disk => .ofFiles (disk.isFolder sources) then
      validateSources root sources settings
    else
      Activity.say ("[yellow]Source directory does not exist: ".toList ++ sources.text)
  else
    Activity.say "[yellow]Graph validation is disabled in the configuration."

end DocGraph
