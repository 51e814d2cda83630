import DocGraph.Files.FileError
import DocGraph.Files.FileSystem

/-!
# Using a file system

A disk is a file system seen from a working directory. A path is walked name by name: each name but
the last has to be that of a folder that may be searched, and two dots lead to the folder around the
one reached. So a path may fail although its text would resolve to an object.

Reading and writing report an error at the path as it was handed in. The three questions `isFile`,
`isFolder` and `holds` are answered in the negative where nothing can be there. They fail where a
name or the whole path is too long to be looked up, or a folder on the way may not be searched.
-/

namespace DocGraph

/-- A file system seen from a working directory. -/
structure Disk where
  files : FileSystem
  cwd : Route

/-- The most bytes that the text of a path may have. -/
def maxPathSize : Nat := 4095

/-- What a walk along a path finds. -/
inductive Spot
  | object (route : Route) (object : FileObject)
  | vacant (folder : Route) (name : Text)
  | blocked (fault : FileFault)
deriving DecidableEq, Repr

namespace Disk

/-- Walks on from a folder. -/
def walk (files : FileSystem) (reached : Route) : List Text → Spot
  | [] => .object reached .folder
  | name :: rest =>
    if (files.access reached).search = false then .blocked .denied
    -- only folders are reached on the way, so two dots can leave any of them
    else if name = Path.up then walk files reached.dropLast rest
    else if maxNameSize < Utf8.size name then .blocked .nameTooLong
    else
      match files.objectAt (reached ++ [name]), rest with
      | some .folder, rest => walk files (reached ++ [name]) rest
      | some object, [] => .object (reached ++ [name]) object
      | some _, _ :: _ => .blocked .notFolder
      | none, [] => .vacant reached name
      | none, _ :: _ => .blocked .missing

section

variable {files : FileSystem} {reached route : Route} {name : Text} {first second rest : List Text}
variable {object : FileObject}

theorem walk_cons : walk files reached (name :: rest) =
    if (files.access reached).search = false then .blocked .denied
    else if name = Path.up then walk files reached.dropLast rest
    else if maxNameSize < Utf8.size name then .blocked .nameTooLong
    else
      match files.objectAt (reached ++ [name]), rest with
      | some .folder, rest => walk files (reached ++ [name]) rest
      | some object, [] => .object (reached ++ [name]) object
      | some _, _ :: _ => .blocked .notFolder
      | none, [] => .vacant reached name
      | none, _ :: _ => .blocked .missing :=
  walk.eq_def files reached (name :: rest)

theorem walk_shut (h : (files.access reached).search = false) :
    walk files reached (name :: rest) = .blocked .denied :=
  walk_cons.trans (if_pos h)

theorem walk_up (h : ¬ (files.access reached).search = false) :
    walk files reached (Path.up :: rest) = walk files reached.dropLast rest := by
  rw [walk_cons, if_neg h, if_pos rfl]

/-- A name is looked up in a folder that may be searched. -/
theorem walk_name (h : ¬ (files.access reached).search = false) (hup : name ≠ Path.up)
    (hsize : ¬ maxNameSize < Utf8.size name) : walk files reached (name :: rest) =
      match files.objectAt (reached ++ [name]), rest with
      | some .folder, rest => walk files (reached ++ [name]) rest
      | some object, [] => .object (reached ++ [name]) object
      | some _, _ :: _ => .blocked .notFolder
      | none, [] => .vacant reached name
      | none, _ :: _ => .blocked .missing := by
  rw [walk_cons, if_neg h, if_neg hup, if_neg hsize]

theorem walk_into (h : ¬ (files.access reached).search = false) (hup : name ≠ Path.up)
    (hsize : ¬ maxNameSize < Utf8.size name)
    (hfolder : files.objectAt (reached ++ [name]) = some .folder) :
    walk files reached (name :: rest) = walk files (reached ++ [name]) rest := by
  rw [walk_name h hup hsize, hfolder]

theorem walk_last (h : ¬ (files.access reached).search = false) (hup : name ≠ Path.up)
    (hsize : ¬ maxNameSize < Utf8.size name)
    (hobject : files.objectAt (reached ++ [name]) = some object) :
    walk files reached [name] = .object (reached ++ [name]) object := by
  rw [walk_name h hup hsize, hobject]
  cases object <;> rfl

theorem walk_vacant (h : ¬ (files.access reached).search = false) (hup : name ≠ Path.up)
    (hsize : ¬ maxNameSize < Utf8.size name)
    (hnone : files.objectAt (reached ++ [name]) = none) :
    walk files reached [name] = .vacant reached name := by
  rw [walk_name h hup hsize, hnone]

theorem walk_long (h : ¬ (files.access reached).search = false) (hup : name ≠ Path.up)
    (hsize : maxNameSize < Utf8.size name) :
    walk files reached (name :: rest) = .blocked .nameTooLong := by
  rw [walk_cons, if_neg h, if_neg hup, if_pos hsize]

/-- A walk that ends at a folder can be continued from there. -/
theorem walk_append (h : walk files reached first = .object route .folder) :
    walk files reached (first ++ second) = walk files route second := by
  fun_induction walk files reached first with
  | case1 reached =>
    cases h
    rfl
  | case3 reached rest hopen ih =>
    rw [List.cons_append, walk_up hopen]
    exact ih h
  | case5 reached name hopen hup hsize rest hfolder ih =>
    rw [List.cons_append, walk_into hopen hup hsize hfolder]
    exact ih h
  | case6 reached name hopen hup hsize object hfolder hobject =>
    exact absurd (Spot.object.inj h).2 hfolder
  | case2 | case4 | case7 | case8 | case9 => cases h

end

/-- The folder in which a walk along a path starts, if it does. A relative path starts in the
working directory, which is searched even for the path that stands for it. -/
def start (disk : Disk) (path : Path) : Except FileFault Route :=
  if path.names.any (·.elem '\x00') then .error .nulInPath
  else if maxPathSize < Utf8.size path.text then .error .nameTooLong
  else if path.isAbsolute then .ok []
  else if disk.files.objectAt disk.cwd ≠ some .folder then .error .missing
  else if (disk.files.access disk.cwd).search = false then .error .denied
  else .ok disk.cwd

/-- What is at a path. -/
def spot (disk : Disk) (path : Path) : Spot :=
  match disk.start path with
  | .ok reached => walk disk.files reached path.names
  | .error fault => .blocked fault

/-- Why a path cannot be looked up: a cause that leaves open whether there is something. -/
def refusal? (disk : Disk) (path : Path) : Option FileError :=
  match disk.spot path with
  | .blocked fault => if fault.isAbsence then none else some ⟨fault, path⟩
  | _ => none

/-- The object at a path, if there is one. -/
def find? (disk : Disk) (path : Path) : Except FileError (Option FileObject) :=
  match disk.refusal? path with
  | some error => .error error
  | none =>
    match disk.spot path with
    | .object _ object => .ok (some object)
    | _ => .ok none

/-- Whether there is something at a path. -/
def holds (disk : Disk) (path : Path) : Except FileError Bool :=
  (disk.find? path).map Option.isSome

def isFolder (disk : Disk) (path : Path) : Except FileError Bool :=
  (disk.find? path).map (· == some .folder)

/-- Whether there is a file at a path, locked ones included. -/
def isFile (disk : Disk) (path : Path) : Except FileError Bool :=
  (disk.find? path).map fun found => found.any (· != .folder)

/-- Whether what is at a path may be read. -/
def mayRead (disk : Disk) (path : Path) : Bool :=
  match disk.spot path with
  | .object route _ => (disk.files.access route).read
  | _ => false

/-- The content of the file at a path. A folder can be opened as well, but not read as a file. -/
def read (disk : Disk) (path : Path) : Except FileError Bytes :=
  match disk.spot path with
  | .object route object =>
    if (disk.files.access route).read then
      match object with
      | .file content => .ok content
      | .locked => .error ⟨.denied, path⟩
      | .folder => .error ⟨.isFolder, path⟩
    else .error ⟨.denied, path⟩
  | .vacant _ _ => .error ⟨.missing, path⟩
  | .blocked fault => .error ⟨fault, path⟩

/-- Adds an object at a vacant path to the folder that it would be in. -/
def add (disk : Disk) (path : Path) (folder : Route) (name : Text) (object : FileObject) :
    Except FileError Disk :=
  if (disk.files.access folder).write then
    .ok { disk with files := disk.files.put folder name object }
  else .error ⟨.denied, path⟩

/-- Puts content into the file at a path, which is created if its folder exists. -/
def write (disk : Disk) (path : Path) (content : Bytes) : Except FileError Disk :=
  match disk.spot path with
  | .object route (.file _) =>
    match route.getLast? with
    | some name =>
      if (disk.files.access route).write then
        .ok { disk with files := disk.files.put route.dropLast name (.file content) }
      else .error ⟨.denied, path⟩
    | none => .error ⟨.isFolder, path⟩
  | .object _ .locked => .error ⟨.denied, path⟩
  | .object _ .folder => .error ⟨.isFolder, path⟩
  | .vacant folder name => disk.add path folder name (.file content)
  | .blocked fault => .error ⟨fault, path⟩

/-- Creates one folder, whose own folder has to exist. -/
def makeFolder (disk : Disk) (path : Path) : Except FileError Disk :=
  match disk.spot path with
  | .object _ _ => .error ⟨.present, path⟩
  | .vacant folder name => disk.add path folder name .folder
  | .blocked fault => .error ⟨fault, path⟩

/-- Creates one folder, or leaves alone the one that is there. -/
def ensureFolder (disk : Disk) (path : Path) : Except FileError Disk :=
  match disk.makeFolder path, disk.isFolder path with
  | .ok disk, _ => .ok disk
  | .error _, .ok true => .ok disk
  | .error e, _ => .error e

/-- Creates a folder and the missing folders around it, given how many names the path has. Folders
that were created before an error stay. -/
def makeFoldersWithin (disk : Disk) (path : Path) : Nat → Disk × Option FileError
  | 0 =>
    match disk.ensureFolder path with
    | .ok disk => (disk, none)
    | .error e => (disk, some e)
  | depth + 1 =>
    match disk.ensureFolder path with
    | .ok disk => (disk, none)
    | .error e =>
      if e.fault = .missing then
        match makeFoldersWithin disk path.parent depth with
        | (disk, some e) => (disk, some e)
        -- the folders around it are there now, so it is tried once more
        | (disk, none) =>
          match disk.ensureFolder path with
          | .ok disk => (disk, none)
          | .error e => (disk, some e)
      else (disk, some e)

/-- Creates a folder and the missing folders around it. -/
def makeFolders (disk : Disk) (path : Path) : Disk × Option FileError :=
  disk.makeFoldersWithin path path.names.length

end Disk

end DocGraph
