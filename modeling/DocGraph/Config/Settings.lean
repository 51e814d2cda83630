import DocGraph.Yaml.Value

/-!
# Settings

The settings of a run are the entries of a mapping. Its values are sections, mappings themselves, in
which the single settings stand. `get?` looks a setting up by the names of the mappings on the way
to it, and `merge` lays one layer of settings over another.

The merge of two mappings keeps what only one of them says. Where both give a value, the upper layer
wins, unless both values are mappings, which are merged in turn.
-/

namespace DocGraph

open Yaml (Value)

/-- Settings: the entries of a mapping. -/
abbrev Settings := List (Value × Value)

namespace Settings

def namedSection (name : String) (entries : List (String × Value)) : Value × Value :=
  (.text name.toList,
    .mapping none (entries.map fun entry => (.text entry.1.toList, entry.2)))

/-- The folder of the sources where no other is set. -/
def defaultSourceFolder : Text := "src/main/java"

/-- The folder of the suggested graphs where no other is set. -/
def defaultOutputFolder : Text := "target/suggested-graphs"

/-- The prefix of tags where no other is set. -/
def defaultPrefix : Text := "aicontext"

/-- The settings that hold where nothing else is said. -/
def default : Settings :=
  [namedSection "project" [("source_dir", .text defaultSourceFolder), ("exclude", .list [])],
    namedSection "tags" [("prefix", .text defaultPrefix)],
    namedSection "validate" [("enabled", .bool true)],
    namedSection "suggest" [("output_dir", .text defaultOutputFolder)]]

/-- The value at the end of a way through mappings. -/
def find? (value : Value) : List Text → Option Value
  | [] => some value
  | name :: rest =>
    match value with
    | .mapping _ entries =>
      match Value.lookup? entries (.text name) with
      | some inner => find? inner rest
      | none => none
    | _ => none

/-- The value of a setting, its name written with dots. -/
def get? (settings : Settings) (key : Text) : Option Value :=
  find? (.mapping none settings) (Text.pieces (· = '.') key)

mutual

/-- A value of the upper layer laid over what is below it. -/
def layered (below : Option Value) : Value → Value
  | .mapping number entries =>
    match below with
    -- the lower mapping is the one that is changed, so its number stays
    | some (.mapping base old) => .mapping base (mergeEntries old entries)
    | _ => .mapping number entries
  | value => value

/-- The entries of the upper layer laid over the lower one. -/
def mergeEntries (base : Settings) : Settings → Settings
  | [] => base
  | (key, value) :: rest =>
    mergeEntries (Value.insert base key (layered (Value.lookup? base key) value)) rest

end

/-- One layer of settings laid over another. -/
def merge (base upper : Settings) : Settings := mergeEntries base upper

/-! ## The settings that are used -/

/-- A setting as text. -/
def text (settings : Settings) (key : String) (fallback : Text) : Text :=
  match settings.get? key.toList with
  | some value => value.display
  | none => fallback

def sourceFolder (settings : Settings) : Text :=
  settings.text "project.source_dir" defaultSourceFolder

/-- The folder of the suggested graphs. -/
def outputFolder (settings : Settings) : Text :=
  settings.text "suggest.output_dir" defaultOutputFolder

def tagPrefix (settings : Settings) : Text := settings.text "tags.prefix" defaultPrefix

/-- Whether a validation checks anything. -/
def validates (settings : Settings) : Bool :=
  match settings.get? "validate.enabled".toList with
  | some value => value.isTrue
  | none => true

/-- The items of a value: those of a collection, the keys of a mapping, the trimmed pieces of a text
between commas. Nothing is meant by a value that does not count as true; any other has no items. -/
def itemsOf? (value : Value) : Option (List Value) :=
  match value with
  | .text t =>
    some ((((Text.pieces (· = ',') t).map Text.trim).filter (!·.isEmpty)).map Value.text)
  | .list items => some items
  | .set items => some items
  | .pair first second => some [first, second]
  | .bytes bytes => some (bytes.map fun byte => .integer byte.toNat)
  | .mapping _ entries => some (entries.map (·.1))
  | value => if value.isTrue then none else some []

/-- The exclusion list, if the setting can be read as one. -/
def exclude? (settings : Settings) : Option (List Value) :=
  match settings.get? "project.exclude".toList with
  | some value => itemsOf? value
  | none => some []

end Settings

end DocGraph
