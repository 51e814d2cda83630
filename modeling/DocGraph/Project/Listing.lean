import DocGraph.Files.Disk
import DocGraph.Project.Exclusion

/-!
# Listing source files

The source files of a project are the files below a folder whose names end as asked for, without the
excluded ones, in component-wise order of their paths. What a name has to end in may itself be a
pattern, and with slashes in it a pattern for the last few names.

Files are met by listing one folder after the other. A folder that cannot be listed is passed over,
whereas a file that is met and cannot be looked up ends the listing.

A listing is a list of steps, since a folder that is missing, an excluded file and a faulty
exclusion list are worth reporting at the point where they are met.
-/

namespace DocGraph

/-- What happens in the course of a listing. -/
inductive ListingStep
  | missingFolder (folder : Path)
  | unreachable (error : FileError)
  | badEnding
  | excluded (file : Path)
  | badExclusion (fault : ExclusionFault)
  | found (file : Path)
deriving DecidableEq, Repr

/-- One name of an ending, or any number of folders. -/
inductive EndingPart
  | anyFolders
  | name (pattern : Glob)
deriving DecidableEq, Repr

/-- The ending of the source files of the language. -/
def javaEnding : Text := ".java"

namespace EndingPart

/-- Two stars, which stand for any number of folders. -/
def stars : Text := ['*', '*']

/-- Whether two stars stand next to each other in a text. -/
def holdsStars : Text → Bool
  | [] => false
  | c :: rest => Text.startsWith stars (c :: rest) || holdsStars rest

/-- Reads one part. Two stars must not be part of a longer name. -/
def read? (part : Text) : Option EndingPart :=
  if part = stars then some anyFolders
  else if holdsStars part then none
  else some (name (Glob.parse part))

/-- The parts of an ending, with a star in front. -/
def readAll? (ending : Text) : Option (List EndingPart) :=
  (Path.namesOf ('*' :: ending)).mapM read?

/-- Whether names lead to a file as the parts say. Folders alone lead to no file. -/
def fits : List EndingPart → List Text → Bool
  | [], names => names.isEmpty
  | anyFolders :: parts, names => !parts.isEmpty && someSuffix (fits parts) names
  | name _ :: _, [] => false
  | name pattern :: parts, first :: names => pattern.accepts first && fits parts names

end EndingPart

/-- Whether the folder at a path can be listed. -/
def Disk.lists (disk : Disk) (folder : Path) : Bool :=
  match disk.spot folder with
  | .object route .folder => (disk.files.access route).read
  | _ => false

/-- Whether names below a folder are met by listing it and one folder after the other. -/
def Disk.sees (disk : Disk) (folder : Path) : List Text → Bool
  | [] => true
  | name :: names => disk.lists folder && sees disk (folder.child name) names

/-- All names that are met below a folder with a given place, in order. -/
def seenNames (disk : Disk) (folder : Path) (route : Route) : List (List Text) :=
  Path.sortNames ((disk.files.namesBelow route).filter (disk.sees folder))

/-- The first folder that is met below a folder whose path is too long for it to be listed. -/
def overlongFolder? (disk : Disk) (folder : Path) (route : Route) : Option Path :=
  (((seenNames disk folder route).filter fun names =>
    disk.files.objectAt (route ++ names) == some .folder).map folder.behind).find? fun path =>
      maxPathSize < Utf8.size path.text

/-- The names that end as the parts say, of files and of folders. -/
def endingNames (disk : Disk) (folder : Path) (route : Route) (parts : List EndingPart) :
    List (List Text) :=
  (seenNames disk folder route).filter (EndingPart.fits (EndingPart.anyFolders :: parts))

/-- Lists the files among some names behind a folder until one cannot be looked up or a faulty
exclusion item is met. -/
def listingSteps (disk : Disk) (folder : Path) (exclude : List ExclusionItem) : List (List Text) →
    List ListingStep
  | [] => []
  | names :: rest =>
    match disk.isFile (folder.behind names) with
    | .error error => [.unreachable error]
    | .ok false => listingSteps disk folder exclude rest
    | .ok true =>
      -- the items see the names below the folder, not the path of the folder
      match excludes exclude ⟨.here, names⟩ with
      | .ok true => .excluded (folder.behind names) :: listingSteps disk folder exclude rest
      | .ok false => .found (folder.behind names) :: listingSteps disk folder exclude rest
      | .error fault => [.badExclusion fault]

/-- Lists the files below a folder. What cannot be listed is passed over, but a folder with too long
a path ends the listing before anything is found. A text that ends in a slash would be a folder, so
no file ends like that. -/
def listing (disk : Disk) (folder : Path) (ending : Text) (exclude : List ExclusionItem) :
    List ListingStep :=
  match disk.spot folder with
  | .object route .folder =>
    match EndingPart.readAll? ending, overlongFolder? disk folder route with
    | none, _ => [.badEnding]
    | some _, some path => [.unreachable ⟨.nameTooLong, path⟩]
    | some parts, none =>
      if ending.getLast? = some '/' then []
      else listingSteps disk folder exclude (endingNames disk folder route parts)
  | .object _ _ => [.missingFolder folder]
  | .vacant _ _ => [.missingFolder folder]
  | .blocked fault =>
    if fault.isAbsence then [.missingFolder folder] else [.unreachable ⟨fault, folder⟩]

end DocGraph
