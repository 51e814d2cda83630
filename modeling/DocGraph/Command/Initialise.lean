import DocGraph.Command.Notice
import DocGraph.Config.Load

/-!
# The command that sets a project up

A file with the default settings is written into the project folder. One that is there already is
left alone unless it is to be replaced.
-/

namespace DocGraph

/-- The default settings as they are written into a file. -/
def settingsText : Text :=
  Text.phrase ["project:\n  source_dir: ", Settings.defaultSourceFolder, "\n  exclude: []\n",
    "tags:\n  prefix: ", Settings.defaultPrefix, "\n", "validate:\n  enabled: true\n",
    "suggest:\n  output_dir: ", Settings.defaultOutputFolder, "\n"]

/-- Writes the default settings into a file. -/
def writeSettings [Screen.Pictures] (file : Path) : Activity Unit :=
  (Activity.ofDiskRun fun disk => .write disk file (Utf8.encode settingsText)).orFileNotice fileNotice

/-- Writes the default settings into the project folder. -/
def initialiseProject [Screen.Pictures] (folder : Path) (overwrite : Bool) : Activity Unit := do
  let file := (folder.resolve (← Activity.disk).cwd).child projectFileName
  let present ← Activity.ofRun fun disk => .ofFiles (disk.holds file)
  if present && !overwrite then
    Activity.say ("[yellow]GraphCheck config already exists: ".toList ++ file.text)
    Activity.say "[yellow]Use --force to overwrite."
    Activity.stop (.exit 1)
  else
    writeSettings file
    Activity.say ("[green]Created config file: ".toList ++ file.text)

end DocGraph
