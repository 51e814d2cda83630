import DocGraph.Project.Event
import DocGraph.Project.Exclusion
import DocGraph.Yaml.Cursor

/-!
# Runs

A run of an activity is what it logged and what came of it: a result, or the fault that ended it.
What was logged before the fault stays logged.

Runs are put together like programs: in `run >>= next` the next run starts where the first one ended
well, and its log follows the log of the first.
-/

namespace DocGraph

/-- Why an activity cannot go on. -/
inductive Fault
  | file (error : FileError)
  | badEnding
  | badExclusion (fault : ExclusionFault)
  | undocumentedUses (errors : List Text)
  | badConfiguration (message : Text)
  | undecodableConfiguration
  | badScalar (fault : Yaml.Fault)
  | notIterable
  | homeUnknown
  | badMarkup
deriving DecidableEq, Repr

/-- The log and the outcome of an activity. -/
structure Run (α : Type) where
  log : List Event
  outcome : Except Fault α

namespace Run

/-- A run that logs nothing and gives a result. -/
def done {α : Type} (a : α) : Run α := ⟨[], .ok a⟩

def fail {α : Type} (fault : Fault) : Run α := ⟨[], .error fault⟩

/-- A run that logs events. -/
def logs (events : List Event) : Run Unit := ⟨events, .ok ()⟩

/-- A run and, if it ends well, the next one. -/
def andThen {α β : Type} (run : Run α) (next : α → Run β) : Run β :=
  match run.outcome with
  | .ok a => ⟨run.log ++ (next a).log, (next a).outcome⟩
  | .error fault => ⟨run.log, .error fault⟩

instance : Monad Run where
  pure := done
  bind := andThen

/-- A question to the file system as a run. -/
def ofFiles {α : Type} : Except FileError α → Run α
  | .ok a => done a
  | .error e => fail (.file e)

/-- The run with a fault in place of its outcome, where the outcome asks for one. -/
def check {α : Type} (run : Run α) (fault? : α → Option Fault) : Run α :=
  run.andThen fun a =>
    match fault? a with
    | some fault => fail fault
    | none => done a

@[simp] theorem bind_eq {α β : Type} (run : Run α) (next : α → Run β) :
    run >>= next = run.andThen next := rfl

@[simp] theorem pure_eq {α : Type} (a : α) : (pure a : Run α) = done a := rfl

@[simp] theorem done_andThen {α β : Type} (a : α) (next : α → Run β) :
    (done a).andThen next = next a := by
  simp [done, andThen]

@[simp] theorem fail_andThen {α β : Type} (fault : Fault) (next : α → Run β) :
    (fail fault : Run α).andThen next = fail fault := rfl

theorem andThen_assoc {α β γ : Type} (run : Run α) (f : α → Run β) (g : β → Run γ) :
    (run.andThen f).andThen g = run.andThen fun a => (f a).andThen g := by
  obtain ⟨log, outcome⟩ := run
  cases outcome with
  | error fault => rfl
  | ok a =>
    simp only [andThen]
    cases (f a).outcome <;> simp [List.append_assoc]

/-- The results of a run for each item, in order. The first fault ends it. -/
def forEach {α β : Type} (items : List α) (run : α → Run β) : Run (List β) :=
  match items with
  | [] => done []
  | a :: rest => (run a).andThen fun b => (forEach rest run).andThen fun bs => done (b :: bs)

@[simp] theorem outcome_done {α : Type} (a : α) : (done a).outcome = .ok a := rfl

@[simp] theorem outcome_fail {α : Type} (fault : Fault) :
    (fail fault : Run α).outcome = .error fault := rfl

@[simp] theorem outcome_logs (events : List Event) : (logs events).outcome = .ok () := rfl

@[simp] theorem outcome_logs_andThen {β : Type} (events : List Event) (next : Unit → Run β) :
    ((logs events).andThen next).outcome = (next ()).outcome := rfl

theorem outcome_andThen {α β : Type} (run : Run α) (next : α → Run β) :
    (run.andThen next).outcome = run.outcome.bind fun a => (next a).outcome := by
  rw [andThen]
  cases run.outcome <;> rfl

theorem outcome_andThen_eq_ok_iff {α β : Type} {run : Run α} {next : α → Run β} {b : β} :
    (run.andThen next).outcome = .ok b ↔ ∃ a, run.outcome = .ok a ∧ (next a).outcome = .ok b := by
  rw [outcome_andThen]
  cases run.outcome <;> simp [Except.bind]

/-- A sequence ends in the fault of its first run, or in that of the next one. -/
theorem outcome_andThen_eq_error_iff {α β : Type} {run : Run α} {next : α → Run β} {fault : Fault} :
    (run.andThen next).outcome = .error fault ↔
      run.outcome = .error fault ∨ ∃ a, run.outcome = .ok a ∧ (next a).outcome = .error fault := by
  rw [outcome_andThen]
  cases run.outcome <;> simp [Except.bind]

/-- The first fault of a sequence of runs ends it. Where there is none, all of them end well. -/
theorem outcome_forEach {α β : Type} {items : List α} {run : α → Run β} {fault? : α → Option Fault}
    {f : α → β}
    (h : ∀ a ∈ items, (run a).outcome = match fault? a with
      | some fault => .error fault
      | none => .ok (f a)) :
    (forEach items run).outcome = match items.findSome? fault? with
      | some fault => .error fault
      | none => .ok (items.map f) := by
  induction items with
  | nil => rfl
  | cons a rest ih =>
    have hfirst := h a List.mem_cons_self
    have hrest := ih fun b hb => h b (List.mem_cons_of_mem _ hb)
    rw [forEach, outcome_andThen, hfirst, List.findSome?_cons]
    cases fault? a with
    | some fault => rfl
    | none =>
      simp only [Except.bind, outcome_andThen, hrest]
      cases rest.findSome? fault? <;> rfl

end Run

end DocGraph
