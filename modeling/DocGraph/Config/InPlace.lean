import DocGraph.Config.Override
import DocGraph.Project.Run

/-!
# Changing settings in place

The settings of a loader are changed step by step. A step that fails leaves them as the steps before
it have changed them.

A mapping is reached by the keys on the way to it. To set a key where the way leads to no mapping is
a fault. A mapping of a file that occurs in several places is changed in all of them.
-/

namespace DocGraph

open Yaml (Value)

/-- A run and the settings that it leaves. -/
structure SettingsRun (α : Type) where
  settings : Settings
  run : Run α

namespace SettingsRun

/-- A run that leaves the settings alone. -/
def reading {α : Type} (settings : Settings) (run : Run α) : SettingsRun α := ⟨settings, run⟩

/-- A run and, if it ends well, the next one on the settings that it leaves. -/
def andThen {α β : Type} (first : SettingsRun α) (next : Settings → α → SettingsRun β) :
    SettingsRun β :=
  match first.run.outcome with
  | .error fault => ⟨first.settings, ⟨first.run.log, .error fault⟩⟩
  | .ok a =>
    let second := next first.settings a
    ⟨second.settings, ⟨first.run.log ++ second.run.log, second.run.outcome⟩⟩

end SettingsRun

namespace Settings

/-- The mapping at the end of a way, its number and its entries. -/
def mappingAt? (number : Option Nat) (entries : Settings) :
    List Value → Option (Option Nat × Settings)
  | [] => some (number, entries)
  | key :: rest =>
    match Value.lookup? entries key with
    | some (.mapping inner entries) => mappingAt? inner entries rest
    | _ => none

/-- The settings with the entries of the mapping at the end of a way changed. -/
def changeAt (change : Settings → Settings) (settings : Settings) : List Value → Settings
  | [] => change settings
  | key :: rest =>
    match Value.lookup? settings key with
    | some (.mapping number entries) =>
      Value.insert settings key (.mapping number (changeAt change entries rest))
    | _ => settings

/-- Sets a key in the mapping at the end of a way. -/
def assign (settings : Settings) (way : List Value) (key value : Value) : SettingsRun Unit :=
  match settings.mappingAt? none way with
  | some (none, _) => ⟨settings.changeAt (Value.insert · key value) way, .done ()⟩
  -- a mapping with a number may occur elsewhere, and is the same one there
  | some (some number, _) => ⟨setInEntries number key value settings, .done ()⟩
  | none => ⟨settings, .fail .notIterable⟩

mutual

/-- Lays a value of the upper layer over what a key holds in the mapping at the end of a way. -/
def layAt (way : List Value) (key : Value) : Value → Settings → SettingsRun Unit
  | .mapping number entries, settings =>
    match settings.mappingAt? none (way ++ [key]) with
    | some _ => mergeAt (way ++ [key]) entries settings
    | none => settings.assign way key (.mapping number entries)
  | value, settings => settings.assign way key value

/-- Lays the entries of the upper layer over the mapping at the end of a way, one by one. -/
def mergeAt (way : List Value) : Settings → Settings → SettingsRun Unit
  | [], settings => .reading settings (.done ())
  | (key, value) :: rest, settings =>
    (layAt way key value settings).andThen fun settings _ => mergeAt way rest settings

end

/-- Makes sure that a section is there. What is no section is replaced by an empty one. -/
def openSection (settings : Settings) (name : Value) : SettingsRun Unit :=
  match settings.mappingAt? none [name] with
  | some _ => .reading settings (.done ())
  | none => settings.assign [] name (.mapping none [])

/-- Applies an override and reports it. -/
def applyOverride (settings : Settings) (change : Override) : SettingsRun Unit :=
  let name : Value := .text change.sectionName
  (settings.openSection name).andThen fun settings _ =>
    (settings.assign [name] (.text change.setting) change.value).andThen fun settings _ =>
      .reading settings (Run.logs [.overrideApplied change.origin])

/-- Applies the overrides of an environment, one variable after the other. -/
def applyVariables (settings : Settings) : List (Text × Text) → SettingsRun Unit
  | [] => .reading settings (.done ())
  | (name, value) :: rest =>
    match Override.ofVariable? name value with
    | some change =>
      (settings.applyOverride change).andThen fun settings _ => settings.applyVariables rest
    | none => settings.applyVariables rest

end Settings

end DocGraph
