import DocGraph.Proofs.Config.Layers
import DocGraph.Proofs.Config.Spelling

/-!
# Text settings from variables

Three settings of the defaults are read as texts, and each has a variable that sets it, whatever the
file says. For none of their sections can a file put a mapping of its own in the place of the one in
the defaults: it is laid over that one, or another value takes the section away. So no other
override reaches these settings, even where mappings of the file stand in several places.

What is read is the text that the value of the variable is written as. This is the text of the
variable only if it spells neither a truth value nor a number, or is written as its value is.
-/

namespace DocGraph

open Yaml (Value)
open Yaml.Value (insert lookup? KeyedEntries DistinctKeys)

namespace Settings

variable {settings base upper old : Settings} {s k : Text} {value : Value} {change : Override}
  {changes : List Override}

/-! ## Sections without a number -/

/-- That a section is no mapping of the file. Changes of other settings do not reach it. -/
def Unnumbered (settings : Settings) (s : Text) : Prop :=
  ∀ number entries, lookup? settings (.text s) ≠ some (.mapping (some number) entries)

/-- A mapping of the defaults stays one of them when a file is laid over it. -/
theorem Unnumbered.merge (hbase : lookup? base (.text s) = some (.mapping none old))
    (h : DistinctKeys upper) : (merge base upper).Unnumbered s := by
  intro number entries hmapping
  rw [Settings.merge, lookup?_mergeEntries h, hbase] at hmapping
  split at hmapping
  · next new _ =>
    cases new with
    | mapping _ _ => cases hmapping
    | null | bool | integer | float | text | bytes | timestamp | list | pair | set =>
      cases hmapping
  · cases hmapping

theorem setIn_eq_mapping {number : Nat} {key new value : Value} {own : Option Nat}
    {entries : Settings} (h : setIn number key new value = .mapping own entries) :
    ∃ old, value = .mapping own old := by
  cases value with
  | mapping other old =>
    rw [setIn] at h
    split at h
    · cases h
      exact ⟨old, rfl⟩
    · cases h
      exact ⟨old, rfl⟩
  | null | bool | integer | float | text | bytes | timestamp | list | pair | set => cases h

theorem Unnumbered.override (h : settings.Unnumbered s) :
    (settings.override change).Unnumbered s := by
  have hinsert : ∀ entries : Settings,
      Unnumbered (insert settings (.text change.sectionName) (.mapping none entries)) s := by
    intro entries number found hmapping
    rw [Yaml.Value.lookup?_insert] at hmapping
    split at hmapping
    · cases hmapping
    · exact h number found hmapping
  simp only [Settings.override]
  split
  · exact hinsert _
  · intro number found hmapping
    rw [lookup?_setInEntries, Option.map_eq_some_iff] at hmapping
    obtain ⟨value, hvalue, hmapping⟩ := hmapping
    obtain ⟨old, rfl⟩ := setIn_eq_mapping hmapping
    exact h number old hvalue
  · exact hinsert _

theorem setting?_override_self (h : settings.Unnumbered change.sectionName) :
    (settings.override change).setting? change.sectionName change.setting = some change.value := by
  simp only [Settings.override]
  split
  · rw [setting?, sectionOf_insert_mapping, if_pos rfl, Yaml.Value.lookup?_insert_self]
  · next number entries hnumbered => exact absurd hnumbered (h number entries)
  · rw [setting?, sectionOf_insert_mapping, if_pos rfl, Yaml.Value.lookup?_cons_self]

theorem exists_mapping_of_setting? (h : settings.setting? s k = some value) :
    ∃ own entries, lookup? settings (.text s) = some (.mapping own entries) ∧
      lookup? entries (.text k) = some value := by
  rw [setting?, sectionOf] at h
  split at h
  · next own entries hsection => exact ⟨own, entries, hsection, h⟩
  · cases h

theorem setting?_of_mapping {own : Option Nat} {entries : Settings}
    (h : lookup? settings (.text s) = some (.mapping own entries)) :
    settings.setting? s k = lookup? entries (.text k) := by
  rw [setting?, sectionOf, h]

/-- A change of the mappings of the file leaves a value of the environment in another one. -/
theorem setting?_setInEntries (h : settings.Unnumbered s)
    (hvalue : settings.setting? s k = some value) (hnumbers : value.numbers = []) (number : Nat)
    (key new : Value) : setting? (setInEntries number key new settings) s k = some value := by
  obtain ⟨own, entries, hsection, hentry⟩ := exists_mapping_of_setting? hvalue
  obtain rfl : own = none := Option.eq_none_iff_forall_ne_some.2 fun own howned =>
    h own entries (howned ▸ hsection)
  have hchanged : lookup? (setInEntries number key new settings) (.text s) =
      some (.mapping none (setInEntries number key new entries)) := by
    rw [lookup?_setInEntries, hsection, Option.map_some, setIn, if_neg (by simp)]
  have habsent : number ∉ value.numbers := by simp [hnumbers]
  rw [setting?_of_mapping hchanged, lookup?_setInEntries, hentry, Option.map_some,
    setIn_of_notMem value habsent]

/-- A value of the environment stays where it is when other settings are overridden. -/
theorem setting?_override_of_ne (h : settings.Unnumbered s)
    (hvalue : settings.setting? s k = some value) (hnumbers : value.numbers = [])
    (hother : ¬ (change.sectionName = s ∧ change.setting = k)) :
    (settings.override change).setting? s k = some value := by
  obtain ⟨own, old, hsection, -⟩ := exists_mapping_of_setting? hvalue
  simp only [Settings.override]
  split
  · next entries hlookup =>
    rw [setting?, sectionOf_insert_mapping]
    split
    · next hsame =>
      have hkey : Value.text change.setting ≠ .text k := by
        simpa using fun hkey => hother ⟨hsame.symm, hkey⟩
      rwa [Yaml.Value.lookup?_insert_of_ne _ _ hkey, ← setting?_of_mapping (hsame ▸ hlookup)]
    · exact hvalue
  · next number _ _ => exact setting?_setInEntries h hvalue hnumbers number _ _
  · next hplain hnumbered =>
    rw [setting?, sectionOf_insert_mapping, if_neg]
    · exact hvalue
    · -- The section is a mapping, which the change would have been made in.
      rintro rfl
      cases own with
      | none => exact hplain old hsection
      | some number => exact hnumbered number old hsection

/-- Where all overrides of a setting agree, it has their value, whatever else is overridden. -/
theorem setting?_overrideAll_of_agree (h : settings.Unnumbered s)
    (hagree : ∀ change ∈ changes, change.sectionName = s → change.setting = k →
      change.value = value) (hnumbers : value.numbers = [])
    (hset : settings.setting? s k = some value ∨
      ∃ change ∈ changes, change.sectionName = s ∧ change.setting = k) :
    (settings.overrideAll changes).setting? s k = some value := by
  induction changes generalizing settings with
  | nil =>
    rcases hset with hvalue | ⟨other, hmem, -⟩
    · exact hvalue
    · cases hmem
  | cons change rest ih =>
    rw [overrideAll, List.foldl_cons, ← overrideAll]
    refine ih h.override (fun other hother => hagree other (List.mem_cons_of_mem _ hother)) ?_
    by_cases hsets : change.sectionName = s ∧ change.setting = k
    · left
      have hvalue := hagree change List.mem_cons_self hsets.1 hsets.2
      obtain ⟨rfl, rfl⟩ := hsets
      rw [setting?_override_self h, hvalue]
    · rcases hset with hvalue | ⟨other, hmem, hother⟩
      · exact .inl (setting?_override_of_ne h hvalue hnumbers hsets)
      · rcases List.mem_cons.1 hmem with rfl | hrest
        · exact absurd hother hsets
        · exact .inr ⟨other, hrest, hother⟩

end Settings

/-! ## Variables that are set -/

/-- That a variable is set to a text, and no other spelling of its name to another one. -/
structure Environment.IsSet (environment : Environment) (name v : Text) : Prop where
  bound : (name, v) ∈ environment.bindings
  alone : ∀ other w, (other, w) ∈ environment.bindings →
    (∃ s k, Override.Names name s k ∧ Override.Names other s k) → w = v

variable {disk : Disk} {environment : Environment} {file : Option Path} {layer settings : Settings}
  {name s k v : Text} {value : Value}

/-- A setting of the defaults is what the variable for it says, whatever the file says. -/
theorem Environment.IsSet.setting? (h : environment.IsSet name v) (hname : Override.Names name s k)
    {old : Settings} (hsection : lookup? Settings.default (.text s) = some (.mapping none old))
    (hlayer : DistinctKeys layer) :
    ((Settings.merge .default layer).overrideAll (Override.all environment.bindings)).setting? s k =
      some (Override.coerce v) := by
  apply Settings.setting?_overrideAll_of_agree (.merge hsection hlayer)
  · rintro change hchange rfl rfl
    obtain ⟨w, hbound, hvalue, hother⟩ := Override.mem_all_iff.1 hchange
    rw [hvalue, h.alone _ _ hbound ⟨_, _, hname, hother⟩]
  · exact Settings.numbers_coerce v
  · exact .inr ⟨⟨name, s, k, Override.coerce v⟩, Override.mem_all_iff.2 ⟨v, h.bound, rfl, hname⟩,
      rfl, rfl⟩

theorem Settings.text_of_get? {name : String} (h : settings.get? name.toList = some value)
    (fallback : Text) : settings.text name fallback = value.display := by
  rw [Settings.text, h]

/-- The settings that are read as texts. -/
inductive TextSetting
  | sourceFolder
  | tagPrefix
  | outputFolder

namespace TextSetting

/-- The section that it stands in. -/
def sectionName : TextSetting → Text
  | sourceFolder => "project"
  | tagPrefix => "tags"
  | outputFolder => "suggest"

/-- Its name in the section. -/
def key : TextSetting → Text
  | sourceFolder => "source_dir"
  | tagPrefix => "prefix"
  | outputFolder => "output_dir"

/-- The variable that sets it. -/
def variableName : TextSetting → Text
  | sourceFolder => "GRAPHCHECK_PROJECT_SOURCE_DIR"
  | tagPrefix => "GRAPHCHECK_TAGS_PREFIX"
  | outputFolder => "GRAPHCHECK_SUGGEST_OUTPUT_DIR"

def read (settings : Settings) : TextSetting → Text
  | sourceFolder => settings.sourceFolder
  | tagPrefix => settings.tagPrefix
  | outputFolder => settings.outputFolder

theorem names (setting : TextSetting) :
    Override.Names setting.variableName setting.sectionName setting.key := by
  cases setting <;> exact ⟨by decide, _, rfl, by decide +kernel⟩

theorem exists_default_section (setting : TextSetting) : ∃ old,
    lookup? Settings.default (.text setting.sectionName) = some (.mapping none old) := by
  cases setting <;> exact ⟨_, rfl⟩

/-- It is read as the text that its value is shown as. -/
theorem read_of_setting? (setting : TextSetting)
    (h : settings.setting? setting.sectionName setting.key = some value) :
    setting.read settings = value.display := by
  have hget : settings.get? (setting.sectionName ++ '.' :: setting.key) = some value := by
    rw [Settings.get?_dotted, h] <;> cases setting <;> decide
  cases setting <;> exact Settings.text_of_get? hget _

end TextSetting

/-- The variable for the exclusion list. -/
def excludeVariable : Text := "GRAPHCHECK_PROJECT_EXCLUDE"

theorem names_excludeVariable :
    Override.Names excludeVariable "project".toList "exclude".toList :=
  ⟨by decide, _, rfl, by decide +kernel⟩

namespace Settings

/-- What does not count as true excludes nothing. -/
theorem itemsOf?_of_not_true (h : value.isTrue = false) : itemsOf? value = some [] := by
  cases value with
  | text t =>
    obtain rfl : t = [] := by simpa [Yaml.Value.isTrue] using h
    rfl
  | list | set | bytes | mapping => simp_all [Yaml.Value.isTrue, itemsOf?]
  | pair | timestamp => cases h
  | null | bool | integer | float => simp [itemsOf?, h]

theorem exclude?_of_setting?
    (h : settings.setting? "project".toList "exclude".toList = some value) :
    settings.exclude? = itemsOf? value := by
  have hget : settings.get? "project.exclude".toList = some value := by
    rw [← h]
    exact @get?_dotted settings "project".toList "exclude".toList (by decide) (by decide)
  rw [exclude?, hget]

end Settings

/-! ## Settings that are read -/

/-- Text settings and the exclusion list given by variables, over any file that can be loaded. -/
theorem loadSettings_text_variables [Yaml.Format] (hfile : AddsLayer disk file layer) (v : Text) :
    ∃ settings, (loadSettings disk environment file).outcome = .ok settings ∧
      (∀ setting : TextSetting, environment.IsSet setting.variableName v →
        setting.read settings = (Override.coerce v).display ∧
          (setting.read settings = v ↔ Override.IsPlain v ∨ Override.IsWritten v)) ∧
      (environment.IsSet excludeVariable v →
        (Override.IsPlain v → settings.exclude? = some
          ((((Text.pieces (· = ',') v).map Text.trim).filter (!·.isEmpty)).map Value.text)) ∧
        ((Override.coerce v).isTrue = false → settings.exclude? = some [])) := by
  have hkeys := hfile.keyedEntries.keys
  refine ⟨_, outcome_loadSettings hfile environment, fun setting hset => ?_, fun hset => ?_⟩
  · obtain ⟨old, hold⟩ := setting.exists_default_section
    have hread := setting.read_of_setting? (hset.setting? setting.names hold hkeys)
    exact ⟨hread, hread ▸ Override.display_coerce_eq_iff⟩
  · have hexclude := Settings.exclude?_of_setting? (hset.setting? names_excludeVariable rfl hkeys)
    refine ⟨fun hplain => ?_, fun hfalse => ?_⟩
    · rw [hexclude, hplain.coerce]
      rfl
    · rw [hexclude, Settings.itemsOf?_of_not_true hfalse]

/-- The file takes the defaults of the project away, and a plain text is given for two of them. -/
theorem loadSettings_text_variables_of_replaced_section :
    let file : Path := ⟨.root, ["p".toList, projectFileName]⟩
    let disk : Disk := ⟨(FileSystem.empty.put [] "p".toList .folder).put ["p".toList]
      projectFileName (.file (Utf8.encode "project: 3\n".toList)), []⟩
    let v : Text := "target, out"
    let environment : Environment :=
      ⟨[(TextSetting.sourceFolder.variableName, v), (excludeVariable, v)], Path.ofText "/u".toList⟩
    ∃ layer, AddsLayer disk (some file) layer ∧
      environment.IsSet TextSetting.sourceFolder.variableName v ∧
      environment.IsSet excludeVariable v ∧ Override.IsPlain v ∧
      ∃ settings, (loadSettings disk environment (some file)).outcome = .ok settings ∧
        settings.sourceFolder = v ∧
        settings.exclude? = some [.text "target".toList, .text "out".toList] := by
  intro file disk v environment
  have hread : ((readLayer disk file).outcome.toOption).isSome = true := by decide +kernel
  obtain ⟨layer, hlayer⟩ := Option.isSome_iff_exists.1 hread
  have hlayer : (readLayer disk file).outcome = .ok layer := by
    cases houtcome : (readLayer disk file).outcome with
    | ok found =>
      rw [houtcome] at hlayer
      cases hlayer
      rfl
    | error fault =>
      rw [houtcome] at hlayer
      cases hlayer
  have hfile : AddsLayer disk (some file) layer := .read (by decide +kernel) hlayer
  have halone : ∀ other w, (other, w) ∈ environment.bindings → w = v := by
    intro other w hmem
    rcases List.mem_pair.1 hmem with heq | heq <;> exact congrArg Prod.snd heq
  have hsource : environment.IsSet TextSetting.sourceFolder.variableName v :=
    ⟨List.mem_cons_self, fun other w hmem _ => halone other w hmem⟩
  have hexclude : environment.IsSet excludeVariable v :=
    ⟨List.mem_cons_of_mem _ List.mem_cons_self, fun other w hmem _ => halone other w hmem⟩
  have hplain : Override.IsPlain v := ⟨by decide +kernel, by decide +kernel, by decide +kernel⟩
  refine ⟨layer, hfile, hsource, hexclude, hplain, ?_⟩
  obtain ⟨settings, houtcome, htexts, hitems⟩ := loadSettings_text_variables hfile v
  refine ⟨settings, houtcome, (htexts .sourceFolder hsource).2.2 (.inl hplain), ?_⟩
  exact ((hitems hexclude).1 hplain).trans rfl

/-- A number and a word for a truth value do not arrive as they are written. -/
theorem loadSettings_of_number_and_word :
    let environment : Environment := ⟨[(TextSetting.tagPrefix.variableName, "007".toList),
      (excludeVariable, "no".toList)], Path.ofText "/u".toList⟩
    let disk : Disk := ⟨FileSystem.empty, []⟩
    environment.IsSet TextSetting.tagPrefix.variableName "007".toList ∧
      environment.IsSet excludeVariable "no".toList ∧
      ∃ settings, (loadSettings disk environment none).outcome = .ok settings ∧
        settings.tagPrefix = "7".toList ∧ settings.tagPrefix ≠ "007".toList ∧
        settings.exclude? = some [] ∧ settings.exclude? ≠ some [.text "no".toList] := by
  intro environment disk
  have hdiffer : ∀ {s k}, Override.Names TextSetting.tagPrefix.variableName s k →
      ¬ Override.Names excludeVariable s k := by
    intro s k htag hexclude
    have hlower := htag.lower_eq.trans hexclude.lower_eq.symm
    revert hlower
    decide +kernel
  refine ⟨⟨List.mem_cons_self, ?_⟩, ⟨List.mem_cons_of_mem _ List.mem_cons_self, ?_⟩, ?_⟩
  · rintro other w hmem ⟨s, k, htag, hother⟩
    rcases List.mem_pair.1 hmem with heq | heq
    · exact congrArg Prod.snd heq
    · obtain ⟨rfl, rfl⟩ := Prod.mk.inj heq
      exact absurd hother (hdiffer htag)
  · rintro other w hmem ⟨s, k, hexclude, hother⟩
    rcases List.mem_pair.1 hmem with heq | heq
    · obtain ⟨rfl, rfl⟩ := Prod.mk.inj heq
      exact absurd hexclude (hdiffer hother)
    · exact congrArg Prod.snd heq
  · have hexclude : (Settings.overrideAll (Settings.merge .default [])
        (Override.all environment.bindings)).exclude? = some [] := rfl
    refine ⟨_, outcome_loadSettings .unchosen environment, by decide +kernel, by decide +kernel,
      hexclude, ?_⟩
    rw [hexclude]
    simp

end DocGraph
