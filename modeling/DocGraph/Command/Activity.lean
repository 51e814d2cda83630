import DocGraph.Console.Markup
import DocGraph.Project.DiskRun

/-!
# Activities of a command

An activity is a part of what a command does. It starts from a disk and leaves a disk, a log, output
and either a result or the way in which the command ends with it. In a sequence each activity starts
from the disk that the one before it left, and log and output follow those of the one before.

A run of the project is an activity without output, and `rescue` turns the fault that ended an
activity into another activity.
-/

namespace DocGraph

/-- How a command ends ahead of its last activity: with an exit code, or with a fault that nothing
is said about. -/
inductive Ending
  | exit (code : Nat)
  | fault (fault : Fault)
deriving DecidableEq, Repr

/-- What an activity leaves. -/
structure Outcome (α : Type) where
  disk : Disk
  log : List Event
  output : Text
  result : Except Ending α

/-- A part of what a command does. -/
def Activity (α : Type) : Type := Disk → Outcome α

namespace Outcome

/-- What is left by one outcome and a later one together. -/
def followedBy {α β : Type} (before : Outcome α) (later : Outcome β) : Outcome β :=
  ⟨later.disk, before.log ++ later.log, before.output ++ later.output, later.result⟩

/-- What is left if, unless the command has ended, something follows. -/
def andThen {α β : Type} (before : Outcome α) (next : α → Disk → Outcome β) : Outcome β :=
  match before.result with
  | .ok a => before.followedBy (next a before.disk)
  | .error ending => ⟨before.disk, before.log, before.output, .error ending⟩

theorem andThen_assoc {α β γ : Type} (before : Outcome α) (f : α → Disk → Outcome β)
    (g : β → Disk → Outcome γ) :
    (before.andThen f).andThen g = before.andThen fun a disk => (f a disk).andThen g := by
  obtain ⟨disk, log, output, result⟩ := before
  cases result with
  | error ending => rfl
  | ok a =>
    cases h : (f a disk).result <;> simp [andThen, followedBy, h, List.append_assoc]

end Outcome

namespace Activity

/-- An activity that does nothing and gives a result. -/
def done {α : Type} (a : α) : Activity α := fun disk => ⟨disk, [], [], .ok a⟩

/-- An activity that ends the command. -/
def stop {α : Type} (ending : Ending) : Activity α := fun disk => ⟨disk, [], [], .error ending⟩

/-- An activity and, if the command goes on after it, the next one. -/
def andThen {α β : Type} (first : Activity α) (next : α → Activity β) : Activity β := fun disk =>
  (first disk).andThen next

instance : Monad Activity where
  pure := done
  bind := andThen

/-- A run that changes the disk as an activity. -/
def ofDiskRun {α : Type} (run : Disk → DiskRun α) : Activity α := fun disk =>
  let result := run disk
  ⟨result.disk, result.run.log, [], result.run.outcome.mapError .fault⟩

/-- A run that leaves the disk alone as an activity. -/
def ofRun {α : Type} (run : Disk → Run α) : Activity α :=
  ofDiskRun fun disk => .reading disk (run disk)

def disk : Activity Disk := fun disk => ⟨disk, [], [], .ok disk⟩

/-- Logs events. -/
def report (events : List Event) : Activity Unit := ofRun fun _ => .logs events

/-- Prints a text as it is. -/
def print (t : Text) : Activity Unit := fun disk => ⟨disk, [], t, .ok ()⟩

/-- Prints a text with markup and ends the line. -/
def say [Screen.Pictures] (t : Text) : Activity Unit :=
  match Markup.plain? t with
  | some t => print (Screen.stack (Screen.lines t))
  | none => stop (.fault .badMarkup)

/-- An activity with another one in place of the fault that ended it, where `handle` knows one. What
was done before the fault stays done. -/
def rescue {α : Type} (activity : Activity α) (handle : Fault → Option (Activity α)) :
    Activity α := fun disk =>
  let before := activity disk
  match before.result with
  | .error (.fault fault) =>
    match handle fault with
    | some other => before.followedBy (other before.disk)
    | none => before
  | _ => before

/-- An activity for each item, in order. -/
def forEach {α : Type} (items : List α) (activity : α → Activity Unit) : Activity Unit :=
  match items with
  | [] => done ()
  | a :: rest => (activity a).andThen fun _ => forEach rest activity

@[simp] theorem bind_eq {α β : Type} (first : Activity α) (next : α → Activity β) :
    first >>= next = first.andThen next := rfl

@[simp] theorem pure_eq {α : Type} (a : α) : (pure a : Activity α) = done a := rfl

@[simp] theorem done_andThen {α β : Type} (a : α) (next : α → Activity β) :
    (done a).andThen next = next a := by
  funext disk
  simp [andThen, done, Outcome.andThen, Outcome.followedBy]

@[simp] theorem stop_andThen {α β : Type} (ending : Ending) (next : α → Activity β) :
    (stop ending).andThen next = stop ending := rfl

theorem andThen_assoc {α β γ : Type} (first : Activity α) (f : α → Activity β)
    (g : β → Activity γ) :
    (first.andThen f).andThen g = first.andThen fun a => (f a).andThen g :=
  funext fun disk => (first disk).andThen_assoc f g

end Activity

end DocGraph
