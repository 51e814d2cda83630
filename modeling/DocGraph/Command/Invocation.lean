import DocGraph.Command.Arguments
import DocGraph.Files.Disk

/-!
# Invocations

The first argument names a command, the others are its options and at most one operand: the file to
show, or the project folder, which is the working directory if none is given. The operand has to
exist, to be of the right kind and to be readable.

Arguments that cannot be understood are refused before anything is done. Help that is asked for
comes before any look at the paths among the arguments.
-/

namespace DocGraph

/-- A command and what it works on. -/
inductive Command
  | validate (folder : Path) (config sources : Option Path)
  | suggest (folder : Path) (config sources output : Option Path)
  | display (file : Path) (tagPrefix : Option Text) (asJson : Bool)
  | initialise (folder : Path) (overwrite : Bool)
deriving DecidableEq, Repr

/-- What the arguments ask for. -/
inductive Invocation
  | help
  | refused
  | unusablePath (path : Path)
  | run (command : Command) (verbose : Bool)
deriving DecidableEq, Repr

/-- The kinds of commands. -/
inductive CommandKind
  | validate
  | suggest
  | display
  | initialise
deriving DecidableEq, Repr

namespace OptionRule

def withValue (name : String) (letter : Option Char) : OptionRule := ⟨name.toList, letter, true⟩

/-- An option without a value. -/
def flag (name : String) (letter : Option Char) : OptionRule := ⟨name.toList, letter, false⟩

end OptionRule

namespace CommandKind

/-- The word that asks for a command. -/
def word : CommandKind → Text
  | validate => "validate"
  | suggest => "suggest"
  | display => "show"
  | initialise => "init"

/-- The kind of command that a word asks for. -/
def ofWord? (t : Text) : Option CommandKind :=
  [validate, suggest, display, initialise].find? (·.word = t)

def rules : CommandKind → List OptionRule
  | validate =>
    [.withValue "--config" 'c', .withValue "--source-dir" 's', .flag "--verbose" 'v',
      .flag "--help" none]
  | suggest =>
    [.withValue "--output" 'o', .withValue "--config" 'c', .withValue "--source-dir" 's',
      .flag "--verbose" 'v', .flag "--help" none]
  | display =>
    [.withValue "--prefix" none, .flag "--json" none, .flag "--verbose" 'v', .flag "--help" none]
  | initialise => [.flag "--force" 'f', .flag "--help" none]

end CommandKind

namespace Arguments

/-- The path that an option gives. -/
def path? (arguments : Arguments) (name : String) : Option Path :=
  (arguments.value? name).map Path.ofText

/-- The paths among the values of the options. -/
def optionPaths (arguments : Arguments) : List Path :=
  ["--config", "--source-dir", "--output"].filterMap arguments.path?

/-- The command of a kind that works on an operand. -/
def command (arguments : Arguments) (operand : Path) : CommandKind → Command
  | .validate => .validate operand (arguments.path? "--config") (arguments.path? "--source-dir")
  | .suggest =>
    .suggest operand (arguments.path? "--config") (arguments.path? "--source-dir")
      (arguments.path? "--output")
  | .display => .display operand (arguments.value? "--prefix") (arguments.has "--json")
  | .initialise => .initialise operand (arguments.has "--force")

end Arguments

/-- The operand of a command, if arguments give one or there is one to fall back on. -/
def CommandKind.operand? : CommandKind → List Text → Option Text
  | _, operand :: _ => some operand
  | .display, [] => none
  | _, [] => some ['.']

/-- Whether a written path ends in a name. One that does not can only lead to a folder. -/
def endsInName (t : Text) : Bool :=
  ((Text.pieces (· == '/') t).getLast?.map Path.keepsName).getD false

/-- Whether an operand leads to what a command works on. -/
def CommandKind.accepts (disk : Disk) (operand : Text) : CommandKind → Bool
  | .display =>
    endsInName operand && (disk.isFile (Path.ofText operand)).toOption == some true &&
      disk.mayRead (Path.ofText operand)
  | _ =>
    !operand.isEmpty && (disk.isFolder (Path.ofText operand)).toOption == some true &&
      disk.mayRead (Path.ofText operand)

def Invocation.ofOperand (disk : Disk) (kind : CommandKind) (arguments : Arguments)
    (operand : Text) : Invocation :=
  let path := Path.ofText operand
  match (arguments.optionPaths ++ [path]).find? fun path => disk.spot path == .blocked .nulInPath with
  | some path => .unusablePath path
  | none =>
    if kind.accepts disk operand && arguments.operands.length ≤ 1 then
      .run (arguments.command path kind) (arguments.has "--verbose")
    else .refused

def Invocation.ofCommand (disk : Disk) (kind : CommandKind) (arguments : List Text) : Invocation :=
  match readArguments kind.rules arguments with
  | none => .refused
  | some arguments =>
    if arguments.has "--help" then .help
    else
      match kind.operand? arguments.operands with
      | some operand => .ofOperand disk kind arguments operand
      | none => .refused

/-- The invocation of the whole program with arguments. Two hyphens before the command count for
nothing. -/
def Invocation.ofArguments (disk : Disk) (arguments : List Text) : Invocation :=
  let arguments := if arguments.head? = some ['-', '-'] then arguments.tail else arguments
  match arguments with
  | [] => .refused
  | word :: rest =>
    if word = "--help".toList then .help
    else
      match CommandKind.ofWord? word with
      | some kind => .ofCommand disk kind rest
      | none => .refused

end DocGraph
