import DocGraph.Files.Disk
import DocGraph.Project.Run

/-!
# Runs that change the disk

A run that changes the disk leaves a disk behind whatever its outcome is. In a sequence, each run
starts from the disk that the one before it left.
-/

namespace DocGraph

/-- A run and the disk that it leaves. -/
structure DiskRun (α : Type) where
  disk : Disk
  run : Run α

namespace DiskRun

/-- A run that leaves the disk alone. -/
def reading {α : Type} (disk : Disk) (run : Run α) : DiskRun α := ⟨disk, run⟩

/-- A run and, if it ends well, the next one on the disk that it leaves. -/
def andThen {α β : Type} (first : DiskRun α) (next : Disk → α → DiskRun β) : DiskRun β :=
  match first.run.outcome with
  | .error fault => ⟨first.disk, ⟨first.run.log, .error fault⟩⟩
  | .ok a =>
    let second := next first.disk a
    ⟨second.disk, ⟨first.run.log ++ second.run.log, second.run.outcome⟩⟩

/-- Puts content into a file. -/
def write (disk : Disk) (file : Path) (content : Bytes) : DiskRun Unit :=
  match disk.write file content with
  | .ok disk => ⟨disk, .done ()⟩
  | .error e => ⟨disk, .fail (.file e)⟩

/-- Creates a folder and the missing folders around it. -/
def makeFolders (disk : Disk) (folder : Path) : DiskRun Unit :=
  match disk.makeFolders folder with
  | (disk, none) => ⟨disk, .done ()⟩
  | (disk, some e) => ⟨disk, .fail (.file e)⟩

end DiskRun

end DocGraph
