import DocGraph.Config.Load
import DocGraph.Proofs.Config.Layers
import DocGraph.Proofs.Yaml.Keys

/-!
# Changes in place

A change in place of the mapping at the end of a way is the change of its entries. So layers merged
in place are the merged layers, and variables applied in place the overrides, and none of this can
fail: the ways that are taken lead to mappings.

A mapping that a file shares with others would be changed in all places. The merge does not come
across one, as it only goes down into the defaults: each key of the file is met once.
-/

namespace DocGraph

open Yaml (Value)
open Yaml.Value (insert lookup? numbers numbersOf? numbersOfEntries KeyedEntries Keyed)

namespace Yaml.Value

variable {entries : List (Value × Value)} {key value : Value}

theorem isSameKey_self_of_lookup? (h : lookup? entries key = some value) :
    key.isSameKey key = true := by
  obtain ⟨entry, hentry, -⟩ := Option.map_eq_some_iff.1 h
  have hfound := List.find?_some hentry
  rw [isSameKey_iff] at hfound ⊢
  exact ⟨rfl, hfound.1 ▸ hfound.2⟩

/-- The last one of two insertions at a key wins. -/
theorem insert_insert (hkey : key.isSameKey key = true) (first second : Value) :
    insert (insert entries key first) key second = insert entries key second := by
  induction entries with
  | nil => simp [insert, hkey]
  | cons entry rest ih =>
    rw [insert]
    by_cases hsame : entry.1.isSameKey key = true
    · simp [insert, hsame]
    · simp [insert, hsame, ih]

/-- A value without numbers has none further down. -/
theorem numbersOf?_lookup? (h : numbersOfEntries entries = []) (key : Value) :
    numbersOf? (lookup? entries key) = [] := by
  refine List.eq_nil_iff_forall_not_mem.2 fun number hnumber => ?_
  have hcount := count_numbers_lookup?_le entries key number
  rw [h, List.count_nil, Nat.le_zero, List.count_eq_zero] at hcount
  exact hcount hnumber

end Yaml.Value

namespace Settings

variable {settings old upper : Settings} {number found : Option Nat} {way : List Value}
variable {key value : Value} {change next : Settings → Settings}

/-! ## Ways -/

/-- The mapping that a key holds, its number and its entries. -/
def heldMapping? (entries : Settings) (key : Value) : Option (Option Nat × Settings) :=
  mappingAt? none entries [key]

theorem heldMapping?_eq_some_iff :
    heldMapping? settings key = some (found, old) ↔
      lookup? settings key = some (.mapping found old) := by
  rw [heldMapping?, mappingAt?]
  cases hlookup : lookup? settings key with
  | none => simp
  | some value => cases value <;> simp [mappingAt?]

/-- A way with one more key. -/
theorem mappingAt?_append (h : mappingAt? number settings way = some (found, old)) (key : Value) :
    mappingAt? number settings (way ++ [key]) = old.heldMapping? key := by
  induction way generalizing number settings with
  | nil =>
    cases h
    rfl
  | cons first way ih =>
    rw [List.cons_append, mappingAt?]
    rw [mappingAt?] at h
    split
    · next hlookup =>
      rw [hlookup] at h
      exact ih h
    · next hnone =>
      split at h
      · next inner entries hlookup => exact absurd hlookup (hnone inner entries)
      · cases h

/-- What is changed at the end of a way is found there. -/
theorem mappingAt?_changeAt (h : mappingAt? number settings way = some (found, old)) :
    mappingAt? number (settings.changeAt change way) way = some (found, change old) := by
  induction way generalizing number settings with
  | nil =>
    cases h
    rfl
  | cons first way ih =>
    rw [mappingAt?] at h
    split at h
    · next inner entries hlookup =>
      have hself := Yaml.Value.isSameKey_self_of_lookup? hlookup
      simp only [changeAt, hlookup, mappingAt?, Yaml.Value.lookup?_insert, hself, if_true]
      exact ih h
    · cases h

/-- A change after another is one change. -/
theorem changeAt_changeAt (h : mappingAt? number settings way = some (found, old)) :
    (settings.changeAt change way).changeAt next way = settings.changeAt (next ∘ change) way := by
  induction way generalizing number settings with
  | nil => rfl
  | cons first way ih =>
    rw [mappingAt?] at h
    split at h
    · next inner entries hlookup =>
      have hself := Yaml.Value.isSameKey_self_of_lookup? hlookup
      simp only [changeAt, hlookup, Yaml.Value.lookup?_insert, hself, if_true,
        Yaml.Value.insert_insert hself, ih h]
    · cases h

/-- A change that makes no difference to the entries makes none to the settings. -/
theorem changeAt_congr (next : Settings → Settings)
    (h : mappingAt? number settings way = some (found, old)) (hsame : change old = next old) :
    settings.changeAt change way = settings.changeAt next way := by
  induction way generalizing number settings with
  | nil =>
    cases h
    exact hsame
  | cons first way ih =>
    rw [mappingAt?] at h
    split at h
    · next inner entries hlookup => simp only [changeAt, hlookup, ih h]
    · cases h

theorem changeAt_id (h : mappingAt? number settings way = some (found, old)) :
    settings.changeAt id way = settings := by
  induction way generalizing number settings with
  | nil => rfl
  | cons first way ih =>
    rw [mappingAt?] at h
    split at h
    · next inner entries hlookup =>
      simp only [changeAt, hlookup, ih h, Yaml.Value.insert_of_lookup? hlookup]
    · cases h

/-- A change behind one more key is a change of what that key holds. -/
theorem changeAt_append (h : mappingAt? number settings way = some (found, old))
    {own : Option Nat} {inner : Settings} (hinner : lookup? old key = some (.mapping own inner)) :
    settings.changeAt change (way ++ [key]) =
      settings.changeAt (insert · key (.mapping own (change inner))) way := by
  induction way generalizing number settings with
  | nil =>
    cases h
    simp only [List.nil_append, changeAt, hinner]
  | cons first way ih =>
    rw [mappingAt?] at h
    split at h
    · next own entries hlookup => simp only [List.cons_append, changeAt, hlookup, ih h]
    · cases h

/-! ## Merging -/

theorem assign_eq (h : mappingAt? none settings way = some (none, old)) :
    settings.assign way key value = ⟨settings.changeAt (insert · key value) way, .done ()⟩ := by
  simp only [assign, h]

theorem mappingAt?_of_unnumbered (h : mappingAt? none settings way = some (none, old))
    (hplain : numbersOf? (lookup? old key) = []) :
    (∃ inner, lookup? old key = some (.mapping none inner) ∧ numbersOfEntries inner = [] ∧
      mappingAt? none settings (way ++ [key]) = some (none, inner)) ∨
    ((∀ own inner, lookup? old key ≠ some (.mapping own inner)) ∧
      mappingAt? none settings (way ++ [key]) = none) := by
  rw [mappingAt?_append h]
  cases hheld : old.heldMapping? key with
  | none =>
    refine .inr ⟨fun own inner hlookup => ?_, rfl⟩
    rw [heldMapping?_eq_some_iff.2 hlookup] at hheld
    cases hheld
  | some held =>
    obtain ⟨own, inner⟩ := held
    have hlookup := heldMapping?_eq_some_iff.1 hheld
    rw [hlookup, numbersOf?, Option.elim_some, numbers, List.append_eq_nil_iff,
      Option.toList_eq_nil_iff] at hplain
    obtain ⟨rfl, hinner⟩ := hplain
    exact .inl ⟨inner, hlookup, hinner, rfl⟩

mutual

theorem layAt_eq {settings old : Settings} {way : List Value} {key value : Value}
    (hvalue : Keyed value) (h : mappingAt? none settings way = some (none, old))
    (hplain : numbersOf? (lookup? old key) = []) :
    layAt way key value settings =
      ⟨settings.changeAt (insert · key (layered (lookup? old key) value)) way, .done ()⟩ := by
  match value with
  | .mapping number entries =>
    rw [layAt]
    rcases mappingAt?_of_unnumbered h hplain with ⟨inner, hlookup, hinner, hway⟩ | ⟨hnone, hway⟩
    · have hmerge := mergeAt_eq settings hvalue.keyedEntries hway
        fun entry _ => Yaml.Value.numbersOf?_lookup? hinner entry.1
      simp only [hway, hmerge, hlookup, layered, changeAt_append h hlookup]
    · have hlayered : layered (lookup? old key) (.mapping number entries) =
          .mapping number entries := by
        rw [layered]
        exact fun own inner hlookup => absurd hlookup (hnone own inner)
      simp only [hway, assign_eq h, hlayered]
  | .null | .bool _ | .integer _ | .float _ | .text _ | .bytes _ | .timestamp _ | .list _
  | .pair _ _ | .set _ => simp only [layAt, assign_eq h, layered]
termination_by structural value

/-- The merge in place goes down into unnumbered mappings only, and is the merge of their
entries. -/
theorem mergeAt_eq (settings : Settings) {old upper : Settings} {way : List Value}
    (hupper : KeyedEntries upper) (h : mappingAt? none settings way = some (none, old))
    (hplain : ∀ entry ∈ upper, numbersOf? (lookup? old entry.1) = []) :
    mergeAt way upper settings =
      ⟨settings.changeAt (mergeEntries · upper) way, .done ()⟩ := by
  match upper with
  | [] =>
    rw [mergeAt, SettingsRun.reading]
    exact congrArg (SettingsRun.mk · _) (changeAt_id h).symm
  | (key, value) :: rest =>
    rw [List.forall_mem_cons] at hplain
    have hlay := layAt_eq (hupper.values _ List.mem_cons_self) h hplain.1
    have hdistinct := List.pairwise_cons.1 hupper.keys
    have hrest := mergeAt_eq
      (settings.changeAt (insert · key (layered (lookup? old key) value)) way)
      ⟨hdistinct.2, fun entry hentry => hupper.values entry (List.mem_cons_of_mem _ hentry)⟩
      (mappingAt?_changeAt h) fun entry hentry => by
        rw [Yaml.Value.lookup?_insert, hdistinct.1 entry hentry, if_neg Bool.false_ne_true]
        exact hplain.2 entry hentry
    simp only [mergeAt, hlay, SettingsRun.andThen, Run.outcome_done, hrest]
    rw [changeAt_changeAt h, changeAt_congr (mergeEntries · ((key, value) :: rest)) h]
    · rfl
    · rw [Function.comp_apply, mergeEntries]
termination_by structural upper

end

/-- A file that is merged into the defaults in place gives the merged settings. -/
theorem mergeAt_default (h : KeyedEntries upper) :
    mergeAt [] upper default = ⟨merge default upper, .done ()⟩ :=
  mergeAt_eq default h rfl fun entry _ => Yaml.Value.numbersOf?_lookup? rfl entry.1

/-! ## Overriding -/

theorem openSection_of_mapping (h : lookup? settings key = some (.mapping found old)) :
    settings.openSection key = ⟨settings, .done ()⟩ := by
  simp only [openSection, mappingAt?, h, SettingsRun.reading]

theorem openSection_of_not_mapping (h : ∀ own entries, lookup? settings key ≠
    some (.mapping own entries)) :
    settings.openSection key = ⟨insert settings key (.mapping none []), .done ()⟩ := by
  have hnone : settings.heldMapping? key = none :=
    Option.eq_none_iff_forall_ne_some.2 fun held hheld =>
      h held.1 held.2 (heldMapping?_eq_some_iff.1 hheld)
  rw [heldMapping?] at hnone
  rw [openSection, hnone]
  rfl

/-- A variable that is applied in place overrides its setting. The section is one by then, so that
its key can be set. -/
theorem applyOverride_eq (settings : Settings) (change : Override) :
    settings.applyOverride change =
      ⟨settings.override change, Run.logs [.overrideApplied change.origin]⟩ := by
  have hself : (Value.text change.sectionName).isSameKey (.text change.sectionName) = true :=
    beq_self_eq_true change.sectionName
  by_cases hsection : ∃ own entries,
      lookup? settings (.text change.sectionName) = some (.mapping own entries)
  · obtain ⟨own, entries, hlookup⟩ := hsection
    cases own with
    | none =>
      simp only [applyOverride, openSection_of_mapping hlookup, SettingsRun.andThen,
        Run.outcome_done, assign, mappingAt?, hlookup, changeAt, Settings.override]
      rfl
    | some number =>
      simp only [applyOverride, openSection_of_mapping hlookup, SettingsRun.andThen,
        Run.outcome_done, assign, mappingAt?, hlookup, Settings.override]
      rfl
  · have hnone : ∀ own entries,
        lookup? settings (.text change.sectionName) ≠ some (.mapping own entries) :=
      fun own entries hlookup => hsection ⟨own, entries, hlookup⟩
    have hoverride : settings.override change = insert settings (.text change.sectionName)
        (.mapping none [(.text change.setting, change.value)]) := by
      simp only [Settings.override]
      split
      · next hlookup => exact absurd hlookup (hnone _ _)
      · next hlookup => exact absurd hlookup (hnone _ _)
      · rfl
    simp only [applyOverride, openSection_of_not_mapping hnone, SettingsRun.andThen,
      Run.outcome_done, assign, mappingAt?, changeAt, Yaml.Value.lookup?_insert, hself, if_true,
      Yaml.Value.insert_insert hself, hoverride]
    rfl

/-- The variables that are applied in place are the overrides of the environment, each of them
reported. -/
theorem applyVariables_eq (settings : Settings) (bindings : List (Text × Text)) :
    settings.applyVariables bindings = ⟨settings.overrideAll (Override.all bindings),
      Run.logs ((Override.all bindings).map fun change => .overrideApplied change.origin)⟩ := by
  induction bindings generalizing settings with
  | nil => rfl
  | cons binding rest ih =>
    obtain ⟨name, value⟩ := binding
    cases hchange : Override.ofVariable? name value with
    | none =>
      have hall : Override.all ((name, value) :: rest) = Override.all rest :=
        List.filterMap_cons_none hchange
      simp only [applyVariables, hchange, hall, ih]
    | some change =>
      have hall : Override.all ((name, value) :: rest) = change :: Override.all rest :=
        List.filterMap_cons_some hchange
      simp only [applyVariables, hchange, hall, applyOverride_eq, SettingsRun.andThen,
        Run.outcome_logs, ih]
      rfl

end Settings

/-! ## Loading -/

namespace Loader

variable [Yaml.Format] {disk : Disk} {environment : Environment} {fault : Fault}

/-- What is left of a load in place: the settings that a load gives, or else the defaults. -/
theorem mergeFile_default (disk : Disk) (file : Option Path) :
    mergeFile disk file .default = ⟨(loadFile disk file).outcome.toOption.getD .default,
      (loadFile disk file).andThen fun _ => .done ()⟩ := by
  cases file with
  | none => rfl
  | some file =>
    rw [mergeFile, loadFile]
    cases hholds : disk.holds file with
    | error e => rfl
    | ok found =>
      cases found with
      | false => rfl
      | true =>
        cases hlayer : (readLayer disk file).outcome with
        | error fault =>
          simp [SettingsRun.andThen, SettingsRun.reading, Run.ofFiles, Run.done, Run.andThen,
            hlayer, Except.toOption]
        | ok layer =>
          have hmerge := Settings.mergeAt_default (keyedEntries_of_readLayer hlayer)
          simp [SettingsRun.andThen, SettingsRun.reading, Run.ofFiles, Run.done, Run.andThen,
            hlayer, hmerge, Run.logs, Except.toOption]

/-- Loading in place is loading: the settings are those that a load gives, or else the defaults. -/
theorem reload_eq (disk : Disk) (environment : Environment) (loader : Loader) :
    loader.reload disk environment =
      (⟨loader.file, (loadSettings disk environment loader.file).outcome.toOption.getD .default⟩,
        (loadSettings disk environment loader.file).andThen fun _ => .done ()) := by
  rw [reload, mergeFile_default, loadSettings]
  cases hload : (loadFile disk loader.file).outcome with
  | error fault => simp [SettingsRun.andThen, Run.andThen, hload, Except.toOption]
  | ok settings =>
    simp [SettingsRun.andThen, Run.andThen, hload, Except.toOption, Settings.applyVariables_eq,
      Run.logs, Run.done]

theorem reload_fault {loader : Loader}
    (h : (loader.reload disk environment).2.outcome = .error fault) :
    (loadSettings disk environment loader.file).outcome = .error fault := by
  rw [reload_eq] at h
  rcases Run.outcome_andThen_eq_error_iff.1 h with hload | ⟨settings, -, hdone⟩
  · exact hload
  · cases hdone

end Loader

end DocGraph
