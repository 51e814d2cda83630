import DocGraph.Files.FileError
import DocGraph.Number.Integer

/-!
# Log events

What a run reports besides its result are events. An event has a level and a message, both fixed
here for every kind of event.
-/

namespace DocGraph

/-- How much an event matters. -/
inductive LogLevel
  | debug
  | info
  | warning
  | error
deriving DecidableEq, Repr

/-- Something worth reporting in the course of a run. -/
inductive Event
  | sourceFolderMissing (folder : Path)
  | fileExcluded (file : Path)
  | undecodable (file : Path)
  | syntaxFaults (file : Path)
  | fileNotIndexed (file : Path) (error : FileError)
  | indexed (types files : Nat) (folder : Path)
  | fileNotScanned (file : Path) (error : FileError)
  | scanned (tags : Nat) (folder : Path)
  | usesFound (type : Text) (used : List Text)
  | edgeWithoutTargets (line : Text)
  | nothingToValidate
  | entryFileMissing (location file : Text)
  | entryFileUnreadable (location : Text) (file : Path) (error : FileError)
  | entryTypeMissing (location name : Text) (file : Path)
  | undocumentedUse (message : Text)
  | unusedDocumentation (message : Text)
  | validated (checked skipped errors warnings : Nat)
  | nothingToSuggest (folder : Path)
  | fileWithoutSuggestion (file : Path) (error : FileError)
  | suggested (graphs : Nat) (folder : Path)
  | configurationMissing (file : Path)
  | configurationFailed (message : Text)
  | configurationLoaded (file : Path)
  | overrideApplied (name : Text)
  | validating (folder : Path) (tagPrefix : Text)
deriving DecidableEq, Repr

namespace LogLevel

def name : LogLevel → Text
  | debug => "DEBUG"
  | info => "INFO"
  | warning => "WARNING"
  | error => "ERROR"

/-- Whether events of the level are reported without being asked for. -/
def isUrgent : LogLevel → Bool
  | debug => false
  | info => false
  | warning => true
  | error => true

end LogLevel

namespace Event

def level : Event → LogLevel
  | undecodable _ => .warning
  | fileNotScanned _ _ => .warning
  | unusedDocumentation _ => .warning
  | nothingToSuggest _ => .warning
  | fileWithoutSuggestion _ _ => .warning
  | configurationMissing _ => .warning
  | undocumentedUse _ => .error
  | configurationFailed _ => .error
  | suggested _ _ => .info
  | configurationLoaded _ => .info
  | _ => .debug

def message : Event → Text
  | sourceFolderMissing folder => Text.phrase ["Source directory does not exist: ", folder.text]
  | fileExcluded file => Text.phrase ["Skipping excluded file ", file.text]
  | undecodable file =>
    Text.phrase ["File ", file.text,
      " contains non-UTF-8 characters, attempting to decode with errors='replace'"]
  | syntaxFaults file =>
    Text.phrase ["Syntax errors while parsing ", file.text, ", continuing with recovered tree"]
  | fileNotIndexed file error =>
    Text.phrase ["Skipping ", file.text, " while indexing project classes: ", error.message]
  | indexed types files folder =>
    Text.phrase ["Indexed ", writeNatural types, " project types from ", writeNatural files,
      " files under ", folder.text]
  | fileNotScanned file error => Text.phrase ["Failed to parse ", file.text, ": ", error.message]
  | scanned tags folder =>
    Text.phrase ["Found ", writeNatural tags, " documentation tags under ", folder.text]
  | usesFound type used =>
    Text.phrase ["Type ", type, " uses project types: ", Text.quotedList used]
  | edgeWithoutTargets line => Text.phrase ["Dropping edge without targets: ", line]
  | nothingToValidate => "No graph tags found, nothing to validate"
  | entryFileMissing location file =>
    Text.phrase ["Skipping graph validation for ", location, ": file not found ", file]
  | entryFileUnreadable location file error =>
    Text.phrase ["Skipping graph validation for ", location, ": could not parse ", file.text, ": ",
      error.message]
  | entryTypeMissing location name file =>
    Text.phrase ["Skipping graph validation for ", location, ": ", name, " not declared in ", file.text]
  | undocumentedUse message => message
  | unusedDocumentation message => message
  | validated checked skipped errors warnings =>
    Text.phrase ["Validated ", writeNatural checked, " graph(s), skipped ", writeNatural skipped, ": ",
      writeNatural errors, " error(s), ", writeNatural warnings, " warning(s)"]
  | nothingToSuggest folder => Text.phrase ["Source directory does not exist: ", folder.text]
  | fileWithoutSuggestion file error => Text.phrase ["Could not parse ", file.text, ": ", error.message]
  | suggested graphs folder =>
    Text.phrase ["Wrote ", writeNatural graphs, " suggested graph(s) to ", folder.text]
  | configurationMissing file => Text.phrase ["Specified config file not found: ", file.text]
  | configurationFailed message => message
  | configurationLoaded file => Text.phrase ["Loaded configuration from ", file.text]
  | overrideApplied name => Text.phrase ["Applied environment override ", name]
  | validating folder tagPrefix =>
    Text.phrase ["Validating graph tags under ", folder.text, " with prefix ", tagPrefix]

end Event

end DocGraph
