import DocGraph.Command.Reach
import DocGraph.Command.Run

/-!
# The program

The program copies what its command may look at into a file system value, runs the command on it,
and carries the changes over to the real file system. The log goes to the error stream.
-/

namespace DocGraph

/-- The place of a path in the real file system. -/
def place (path : Path) := (IO.FS.DirEntry.mk "/" (String.ofList path.text)).path

/-- What may be done with a folder, as far as this can be told by trying: whether it can be listed,
and whether a name is looked up in it. -/
def folderAccess (folder : Route) : IO Access := do
  let there := place (.ofRoute folder)
  let listed ← try
      let _ ← there.readDir
      pure true
    catch _ => pure false
  let searched ← (there / ".").pathExists
  pure ⟨listed, true, searched⟩

/-- Copies a folder without what is in it. -/
def copyFolder (files : FileSystem) (folder : Route) (name : Text) : IO FileSystem := do
  let access ← folderAccess (folder ++ [name])
  pure ((files.put folder name .folder).restrict (folder ++ [name]) access)

/-- Copies one object. What is neither a folder nor a file that can be read is locked. -/
def copyObject (files : FileSystem) (folder : Route) (name : Text) : IO FileSystem := do
  let there := place (.ofRoute (folder ++ [name]))
  if ← there.isDir then copyFolder files folder name
  else if ← there.pathExists then
    try
      let content ← IO.FS.readBinFile there
      pure (files.put folder name (.file content.toList))
    catch _ => pure (files.put folder name .locked)
  else pure files

/-- Copies the objects on the way along a route from a folder. -/
def copyWay (files : FileSystem) (folder : Route) : Route → IO FileSystem
  | [] => pure files
  | name :: rest => do
    let files ← copyObject files folder name
    copyWay files (folder ++ [name]) rest

/-- Copies one object that was not copied before, the content of source files only. -/
def noteObject (files : FileSystem) (folder : Route) (name : Text) : IO FileSystem :=
  if (files.objectAt (folder ++ [name])).isSome then pure files
  else if Text.endsWith javaEnding name then copyObject files folder name
  else do
    let isFolder ← (place (.ofRoute (folder ++ [name]))).isDir
    if isFolder then copyFolder files folder name else pure (files.put folder name (.file []))

/-- Copies what is below a folder, without following links to other folders. -/
partial def copyBelow (files : FileSystem) (folder : Route) : IO FileSystem := do
  let there := place (.ofRoute folder)
  let access ← folderAccess folder
  if (← there.isDir) && access.read then
    let mut files := files
    for entry in ← there.readDir do
      let name := entry.fileName.toList
      -- in a folder that cannot be searched, nothing but the names can be told
      if !access.search then files := files.put folder name .locked
      else
        let isLink := (← entry.path.symlinkMetadata).type == .symlink
        if !(isLink && (← entry.path.isDir)) then
          files ← noteObject files folder name
          files ← copyBelow files (folder ++ [name])
    pure files
  else pure files

/-- Copies what a command may look at. -/
def copyReach (disk : Disk) (reach : Reach) : IO Disk := do
  let mut files := disk.files
  for path in reach.places ++ reach.folders do
    files ← copyWay files [] (path.routeFrom disk.cwd)
  for path in reach.folders do
    files ← copyBelow files (path.routeFrom disk.cwd)
  pure { disk with files := files }

/-- Creates and writes what a file system holds beyond what it held before. -/
def carryOver (before after : FileSystem) : IO Unit := do
  for (route, object) in after.objects do
    if before.objectAt route != some object then
      match object with
      | .folder => IO.FS.createDirAll (place (.ofRoute route))
      | .file content => IO.FS.writeBinFile (place (.ofRoute route)) content.toByteArray
      | .locked => pure ()

/-- One variable as it stands among all variables. -/
def variableOf (t : Text) : Text × Text := (t.takeWhile (· != '='), (t.dropWhile (· != '=')).tail)

def processVariables : IO (List (Text × Text)) := do
  let content ← IO.FS.readBinFile "/proc/self/environ"
  let entries := Text.pieces (· == '\x00') (Utf8.decodeReplacing content.toList)
  pure ((entries.filter (!·.isEmpty)).map variableOf)

def processEnvironment : IO Environment := do
  let bindings ← processVariables
  let bare : Environment := ⟨bindings, Path.ofText []⟩
  pure { bare with userFolder := bare.settingsFolder }

/-- What is told of the ending of a command, and its exit code. -/
def tellEnding : Ending → IO UInt32
  | .exit code => do
    if code = CommandRun.refusedCode then IO.eprintln "The arguments are not understood; see --help."
    pure code.toUInt32
  | .fault _ => do
    IO.eprintln "The command ended in a fault."
    pure 1

end DocGraph

open DocGraph in
/-- Runs the command that the arguments ask for. -/
def main (arguments : List String) : IO UInt32 := do
  let arguments := arguments.map String.toList
  let environment ← processEnvironment
  let folder := Path.ofText (toString (← IO.currentDir)).toList
  let start : Disk := ⟨.empty, folder.names⟩
  let named ← copyReach start (reachOf start environment arguments)
  let disk ← copyReach named (reachOf named environment arguments)
  let run := runCommand environment arguments disk
  carryOver disk.files run.disk.files
  for event in run.log do
    IO.eprintln (String.ofList (event.level.name ++ ' ' :: event.message))
  IO.print (String.ofList run.output)
  tellEnding run.ending
