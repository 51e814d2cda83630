import DocGraph.Text.Basic

/-!
# Arguments of a command

A command has options and takes operands. An option is written with two hyphens and a name, and some
also with one hyphen and a letter; options with a letter can be written together. The value of an
option stands behind it, in the next argument, behind an equals sign after a long name, or right
behind a letter. After two hyphens alone all arguments are operands.

`readArguments` gives the options that were set, in order, and the operands. Arguments that name an
unknown option, lack a value or give one where none is taken are refused.
-/

namespace DocGraph

/-- An option that a command knows. -/
structure OptionRule where
  name : Text
  letter : Option Char
  takesValue : Bool
deriving DecidableEq, Repr

/-- The options that were set, with their values, and the operands. -/
structure Arguments where
  options : List (Text × Text)
  operands : List Text
deriving DecidableEq, Repr

namespace Arguments

/-- Arguments with one more option in front. -/
def addOption (name value : Text) (rest : Arguments) : Arguments :=
  { rest with options := (name, value) :: rest.options }

/-- Arguments with one more operand in front. -/
def addOperand (operand : Text) (rest : Arguments) : Arguments :=
  { rest with operands := operand :: rest.operands }

/-- The value of an option, the last one if it was set more than once. -/
def value? (arguments : Arguments) (name : String) : Option Text :=
  (arguments.options.reverse.find? (·.1 = name.toList)).map (·.2)

/-- Whether an option was set. -/
def has (arguments : Arguments) (name : String) : Bool := (arguments.value? name).isSome

end Arguments

/-- What is read next: whole arguments, or further letters of one. -/
inductive ArgumentsLeft
  | arguments
  | letters (rest : Text)

/-- The name of a long option and the value behind its equals sign. -/
def splitEquals (t : Text) : Text × Option Text :=
  match t.dropWhile (· ≠ '=') with
  | _ :: value => (t.takeWhile (· ≠ '='), some value)
  | [] => (t, none)

/-- Sets an option whose value is the next argument. -/
def withNext (read : List Text → Option Arguments) (name : Text) : List Text → Option Arguments
  | [] => none
  | value :: rest => (read rest).map (·.addOption name value)

/-- Reads arguments in at most some number of steps. -/
def readSteps (rules : List OptionRule) : Nat → ArgumentsLeft → List Text → Option Arguments
  | 0, _, _ => none
  | _ + 1, .arguments, [] => some ⟨[], []⟩
  | steps + 1, .letters [], rest => readSteps rules steps .arguments rest
  | steps + 1, .letters (c :: letters), rest => do
    let rule ← rules.find? (·.letter = some c)
    if rule.takesValue then
      if letters.isEmpty then withNext (readSteps rules steps .arguments) rule.name rest
      else (readSteps rules steps .arguments rest).map (·.addOption rule.name letters)
    else (readSteps rules steps (.letters letters) rest).map (·.addOption rule.name [])
  | steps + 1, .arguments, argument :: rest =>
    match argument with
    | ['-', '-'] => some ⟨[], rest⟩
    | '-' :: '-' :: _ => do
      let (name, value) := splitEquals argument
      let rule ← rules.find? (·.name = name)
      match rule.takesValue, value with
      | true, some value => (readSteps rules steps .arguments rest).map (·.addOption rule.name value)
      | true, none => withNext (readSteps rules steps .arguments) rule.name rest
      | false, some _ => none
      | false, none => (readSteps rules steps .arguments rest).map (·.addOption rule.name [])
    | '-' :: c :: letters => readSteps rules steps (.letters (c :: letters)) rest
    | operand => (readSteps rules steps .arguments rest).map (·.addOperand operand)

/-- Reads the arguments of a command that knows some options. Each letter and each argument takes a
step. -/
def readArguments (rules : List OptionRule) (arguments : List Text) : Option Arguments :=
  readSteps rules (arguments.flatten.length + 2 * arguments.length + 1) .arguments arguments

end DocGraph
