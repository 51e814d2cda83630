import DocGraph.Config.Settings

/-!
# Overriding settings

A variable of the environment whose name is the marker, a section and a setting overrides that
setting. Section and setting are taken in lower case; the section ends at the first underscore. The
value is a truth value, a number or a text, whatever its spelling tells.

A mapping that occurs in several places of a file is overridden in all of them.
-/

namespace DocGraph

open Yaml (Value)

/-- The start of the names of variables that override settings. -/
def variableMarker : Text := "GRAPHCHECK_"

/-- A setting and the value that overrides it. -/
structure Override where
  origin : Text
  sectionName : Text
  setting : Text
  value : Value

namespace Override

/-- The value that a text spells. -/
def coerce (t : Text) : Value :=
  let word := Text.lower t
  if (Text.ofStrings ["true", "yes"]).elem word then .bool true
  else if (Text.ofStrings ["false", "no"]).elem word then .bool false
  else
    match readInteger? t with
    | some n => .integer n
    | none =>
      match Binary64.read? t with
      | some x => .float x
      | none => .text t

/-- The override that a variable stands for, if it stands for one. -/
def ofVariable? (name value : Text) : Option Override := do
  let rest ← Text.after? variableMarker name
  match Text.pieces (· = '_') (Text.lower rest) with
  -- the rest of the pieces belong to the setting, whose name may hold underscores
  | first :: second :: more => pure ⟨name, first, Text.join ['_'] (second :: more), coerce value⟩
  | _ => none

/-- The overrides of an environment, in its order. -/
def all (bindings : List (Text × Text)) : List Override :=
  bindings.filterMap fun entry => ofVariable? entry.1 entry.2

end Override

namespace Settings

mutual

/-- Sets a key in the mapping with a number, wherever it occurs in a value. -/
def setIn (number : Nat) (key new : Value) : Value → Value
  | .mapping n entries =>
    -- the mapping cannot occur inside itself, so nothing below it is looked at
    if n = some number then .mapping n (Value.insert entries key new)
    else .mapping n (setInEntries number key new entries)
  | .list items => .list (setInAll number key new items)
  | .pair first second => .pair (setIn number key new first) (setIn number key new second)
  | value => value

/-- Sets a key in the mapping with a number, wherever it occurs in some values. -/
def setInAll (number : Nat) (key new : Value) : List Value → List Value
  | [] => []
  | value :: rest => setIn number key new value :: setInAll number key new rest

/-- Sets a key in the mapping with a number, wherever it occurs in the values of some entries. -/
def setInEntries (number : Nat) (key new : Value) : List (Value × Value) → List (Value × Value)
  | [] => []
  | (name, value) :: rest => (name, setIn number key new value) :: setInEntries number key new rest

end

/-- The settings with one of them overridden. What is no section is replaced by an empty one. -/
def override (settings : Settings) (change : Override) : Settings :=
  let name : Value := .text change.sectionName
  let key : Value := .text change.setting
  match Value.lookup? settings name with
  | some (.mapping none entries) =>
    Value.insert settings name (.mapping none (Value.insert entries key change.value))
  | some (.mapping (some number) _) => setInEntries number key change.value settings
  | _ => Value.insert settings name (.mapping none [(key, change.value)])

/-- The settings with all overrides, the last one winning. -/
def overrideAll (settings : Settings) (changes : List Override) : Settings :=
  changes.foldl override settings

end Settings

end DocGraph
