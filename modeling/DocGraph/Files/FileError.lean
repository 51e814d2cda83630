import DocGraph.Files.Path
import DocGraph.Text.Quoted

/-!
# Errors of a file system

An error has a cause and the path as it was handed in. The message is the number of the cause, its
wording and the quoted path.
-/

namespace DocGraph

/-- Why an object cannot be used. -/
inductive FileFault
  | missing
  | denied
  | present
  | notFolder
  | isFolder
  | nameTooLong
  | nulInPath
deriving DecidableEq, Repr

/-- A cause and the path at which it arose. -/
structure FileError where
  fault : FileFault
  path : Path
deriving DecidableEq, Repr

namespace FileFault

/-- The number of a cause. A path that no system call accepts has none. -/
def number? : FileFault → Option Nat
  | missing => some 2
  | denied => some 13
  | present => some 17
  | notFolder => some 20
  | isFolder => some 21
  | nameTooLong => some 36
  | nulInPath => none

def wording : FileFault → Text
  | missing => "No such file or directory"
  | denied => "Permission denied"
  | present => "File exists"
  | notFolder => "Not a directory"
  | isFolder => "Is a directory"
  | nameTooLong => "File name too long"
  | nulInPath => "embedded null byte"

/-- Whether the cause means that there is nothing at the path. -/
def isAbsence : FileFault → Bool
  | missing => true
  | notFolder => true
  | nulInPath => true
  | _ => false

end FileFault

namespace FileError

def message (error : FileError) : Text :=
  match error.fault.number? with
  | some number =>
    "[Errno ".toList ++ Nat.toDigits 10 number ++ "] ".toList ++ error.fault.wording ++
      ": ".toList ++ Text.quoted error.path.text
  | none => error.fault.wording

end FileError

end DocGraph
