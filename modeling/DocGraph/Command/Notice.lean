import DocGraph.Command.Activity

/-!
# Notices of a command

A summary is a message between two rules, with a title in the first one. Its message is shown as it
is, without markup.
-/

namespace DocGraph

/-- A horizontal line. -/
def ruler : Text := "─────"

def summaryLines [Screen.Pictures] (title message : Text) : List Text :=
  [[], ruler ++ ' ' :: title ++ ' ' :: ruler, []] ++ Screen.lines (Screen.shown message) ++
    [[], ruler, []]

namespace Activity

/-- Prints a summary. -/
def summarise [Screen.Pictures] (title message : Text) : Activity Unit :=
  print (Screen.stack (summaryLines title message))

/-- Prints a message that sums up what went wrong, and ends the command as failed. -/
def failWith [Screen.Pictures] {α : Type} (message : Text) : Activity α := do
  summarise "Error Summary" message
  stop (.exit 1)

/-- An activity with a notice in place of the file error that ended it. A path that can stand for no
file at all is a fault of its own. -/
def orFileNotice [Screen.Pictures] {α : Type} (activity : Activity α) (notice : FileError → Text) :
    Activity α :=
  activity.rescue fun
    | .file error =>
      if error.fault = .nulInPath then none
      else some do
        say (notice error)
        stop (.exit 1)
    | _ => none

end Activity

def fileNotice (error : FileError) : Text := "[red]File system error: ".toList ++ error.message

end DocGraph
