import DocGraph.Proofs.Config.Failure
import DocGraph.Proofs.Config.Merging
import DocGraph.Proofs.Config.Sharing
import DocGraph.Proofs.Config.Variables
import DocGraph.Proofs.Yaml.Unreadable

/-!
# Layers of settings

A setting in a section is found in the uppermost layer that says something about it: a variable of
the environment, else the file, else the defaults. A file that gives a section another value than a
mapping takes the defaults of the section away, and an override brings the section back with nothing
else in it.

As no two variables override the same setting, their order does not matter.
-/

namespace DocGraph

open Yaml (Value)
open Yaml.Value (insert lookup? KeyedEntries DistinctKeys)

namespace Settings

variable {settings base upper entries : Settings} {s k name : Text} {change : Override}

/-- The entries of a section. What is no mapping has none. -/
def sectionOf (settings : Settings) (s : Text) : Settings :=
  match lookup? settings (.text s) with
  | some (.mapping _ entries) => entries
  | _ => []

/-- The value of a setting in a section. -/
def setting? (settings : Settings) (s k : Text) : Option Value :=
  lookup? (settings.sectionOf s) (.text k)

/-! ## Merged layers -/

@[simp] theorem layered_none (value : Value) : layered none value = value := by
  cases value <;> rfl

/-- The value of a setting in two layers. Where the upper one gives the section another value than a
mapping, there is none. -/
def layeredSetting? (base upper : Settings) (s k : Text) : Option Value :=
  match lookup? upper (.text s) with
  | none => base.setting? s k
  | some (.mapping _ entries) =>
    match lookup? entries (.text k) with
    | some value => some (layered (base.setting? s k) value)
    | none => base.setting? s k
  | some _ => none

theorem sectionOf_of_not_mapping (h : ∀ number entries,
    lookup? settings (.text s) ≠ some (.mapping number entries)) : settings.sectionOf s = [] := by
  rw [sectionOf]
  split
  · next number entries hlookup => exact absurd hlookup (h number entries)
  · rfl

theorem setting?_merge (h : KeyedEntries upper) :
    (merge base upper).setting? s k = layeredSetting? base upper s k := by
  have hmerged := @lookup?_mergeEntries base upper h.keys (.text s)
  rw [layeredSetting?]
  cases hupper : lookup? upper (.text s) with
  | none =>
    rw [hupper] at hmerged
    rw [setting?, setting?, sectionOf, sectionOf, merge, hmerged]
  | some value =>
    rw [hupper] at hmerged
    cases value with
    | mapping number entries =>
      obtain ⟨entry, hentry, hvalue⟩ := Yaml.Value.exists_of_lookup? hupper
      have hkeyed := (hvalue ▸ h.values entry hentry).keyedEntries
      have hbare : base.sectionOf s = [] →
          lookup? entries (.text k) = match lookup? entries (.text k) with
            | some value => some (layered (base.setting? s k) value)
            | none => base.setting? s k := by
        intro hempty
        rw [setting?, hempty]
        cases lookup? entries (.text k) <;> simp
      rw [setting?, sectionOf, merge, hmerged]
      cases hbelow : lookup? base (.text s) with
      | none => exact hbare (sectionOf_of_not_mapping (by simp [hbelow]))
      | some below =>
        cases below with
        | mapping root old =>
          have hold : base.setting? s k = lookup? old (.text k) := by
            rw [setting?, sectionOf, hbelow]
          simp only [layered, hold]
          exact lookup?_mergeEntries hkeyed.keys (.text k)
        | null | bool | integer | float | text | bytes | timestamp | list | pair | set =>
          exact hbare (sectionOf_of_not_mapping (by simp [hbelow]))
    | null | bool | integer | float | text | bytes | timestamp | list | pair | set =>
      rw [setting?, sectionOf, merge, hmerged]
      rfl

/-! ## Overrides -/

theorem lookup?_setInEntries {number : Nat} {key new : Value} :
    lookup? (setInEntries number key new entries) (.text s) =
      (lookup? entries (.text s)).map (setIn number key new) := by
  induction entries with
  | nil => rfl
  | cons entry rest ih =>
    obtain ⟨name, value⟩ := entry
    rw [setInEntries, Yaml.Value.lookup?_cons, Yaml.Value.lookup?_cons]
    split
    · rfl
    · exact ih

/-- What stands at another key than a mapping is left alone when that mapping changes. -/
theorem lookup?_setInEntries_of_ne {number : Nat} {key new : Value} (h : Unshared settings)
    (hname : lookup? settings (.text name) = some (.mapping (some number) entries))
    (hne : s ≠ name) :
    lookup? (setInEntries number key new settings) (.text s) = lookup? settings (.text s) := by
  rw [lookup?_setInEntries]
  cases hvalue : lookup? settings (.text s) with
  | none => rfl
  | some value =>
    have hplaces := @Yaml.Value.count_numbers_lookup?_of_ne number settings s name hne
    have honce := unshared_iff.1 h number
    rw [hname, hvalue] at hplaces
    simp only [Yaml.Value.numbersOf?, Option.elim_some, Yaml.Value.numbers, Option.toList_some,
      List.singleton_append, List.count_cons_self] at hplaces
    have habsent : number ∉ value.numbers := List.count_eq_zero.1 (by omega)
    rw [Option.map_some, setIn_of_notMem value habsent]

theorem sectionOf_insert_mapping (settings : Settings) (number : Option Nat) (entries : Settings) :
    sectionOf (insert settings (.text name) (.mapping number entries)) s =
      if s = name then entries else settings.sectionOf s := by
  split
  · next heq => rw [sectionOf, heq, Yaml.Value.lookup?_insert_self]
  · next hne =>
    rw [sectionOf, sectionOf, Yaml.Value.lookup?_insert_of_ne]
    simpa using Ne.symm hne

/-- An override sets one entry of its section. Other sections are as they were. -/
theorem sectionOf_override (h : Unshared settings) :
    (settings.override change).sectionOf s =
      if s = change.sectionName then
        insert (settings.sectionOf s) (.text change.setting) change.value
      else settings.sectionOf s := by
  simp only [override]
  split
  · next entries hlookup =>
    rw [sectionOf_insert_mapping]
    split
    · next heq => rw [heq, sectionOf, hlookup]
    · rfl
  · next number entries hlookup =>
    split
    · next heq =>
      rw [sectionOf, sectionOf, lookup?_setInEntries, heq, hlookup, Option.map_some, setIn,
        if_pos rfl]
    · next hne => rw [sectionOf, sectionOf, lookup?_setInEntries_of_ne h hlookup hne]
  · next hplain hnumbered =>
    rw [sectionOf_insert_mapping]
    split
    · next heq =>
      rw [heq, sectionOf_of_not_mapping]
      · rfl
      · rintro (_ | number) entries hmapping
        · exact hplain entries hmapping
        · exact hnumbered number entries hmapping
    · rfl

theorem setting?_override (h : Unshared settings) :
    (settings.override change).setting? s k =
      if s = change.sectionName ∧ k = change.setting then some change.value
      else settings.setting? s k := by
  rw [setting?, setting?, sectionOf_override h]
  by_cases hs : s = change.sectionName
  · by_cases hk : k = change.setting
    · rw [if_pos hs, if_pos ⟨hs, hk⟩, hk, Yaml.Value.lookup?_insert_self]
    · rw [if_pos hs, if_neg fun hboth => hk hboth.2, Yaml.Value.lookup?_insert_of_ne]
      simpa using Ne.symm hk
  · rw [if_neg hs, if_neg fun hboth => hs hboth.1]

theorem numbers_coerce (t : Text) : (Override.coerce t).numbers = [] := by
  unfold Override.coerce
  dsimp only
  split
  · rfl
  · split
    · rfl
    · split
      · rfl
      · split <;> rfl

/-- Of all overrides of a setting the last one counts. -/
theorem setting?_overrideAll {changes : List Override} (h : Unshared settings)
    (hvalues : ∀ change ∈ changes, change.value.numbers = []) :
    (settings.overrideAll changes).setting? s k =
      match changes.reverse.find? fun change => change.sectionName = s ∧ change.setting = k with
      | some change => some change.value
      | none => settings.setting? s k := by
  induction changes generalizing settings with
  | nil => rfl
  | cons change rest ih =>
    have hfirst := h.override (hvalues change List.mem_cons_self)
    have hrest := ih hfirst fun other hother => hvalues other (List.mem_cons_of_mem _ hother)
    rw [overrideAll, List.foldl_cons, ← overrideAll, hrest, List.reverse_cons, List.find?_append]
    cases rest.reverse.find? fun change => change.sectionName = s ∧ change.setting = k with
    | some last => rfl
    | none =>
      rw [setting?_override h, Option.none_or, List.find?_singleton]
      by_cases hsets : s = change.sectionName ∧ k = change.setting
      · simp [hsets]
      · have hother : ¬ (change.sectionName = s ∧ change.setting = k) :=
          fun hboth => hsets ⟨hboth.1.symm, hboth.2.symm⟩
        simp [hsets, hother]

/-! ## Look-ups by dotted names -/

theorem get?_eq_find? {key : Text} {rest : List Text}
    (h : Text.pieces (· = '.') key = s :: k :: rest) :
    settings.get? key = (settings.setting? s k).bind (find? · rest) := by
  rw [get?, h, find?, setting?, sectionOf]
  cases lookup? settings (.text s) with
  | none => rfl
  | some value =>
    cases value with
    | mapping number entries =>
      simp only [find?]
      cases lookup? entries (.text k) <;> rfl
    | null | bool | integer | float | text | bytes | timestamp | list | pair | set => rfl

theorem get?_dotted (hs : '.' ∉ s) (hk : '.' ∉ k) :
    settings.get? (s ++ '.' :: k) = settings.setting? s k := by
  have hpiece : ∀ {t : Text}, '.' ∉ t → ∀ d ∈ t, decide (d = '.') = false := by
    intro t ht d hd
    rw [decide_eq_false_iff_not]
    rintro rfl
    exact ht hd
  have hpieces : Text.pieces (· = '.') (s ++ '.' :: k) = [s, k] := by
    rw [Text.pieces_append_separator (hpiece hs) rfl, Text.pieces_eq_singleton (hpiece hk)]
  rw [get?_eq_find? hpieces]
  cases settings.setting? s k <;> rfl

/-- A key with a dot has a section, a setting and perhaps more names. -/
theorem exists_pieces_of_dot {key : Text} (h : '.' ∈ key) :
    ∃ s k rest, Text.pieces (· = '.') key = s :: k :: rest := by
  obtain ⟨before, behind, rfl⟩ := List.append_of_mem h
  have hcut := @Text.pieces_append_cons (· = '.') behind '.' before rfl
  obtain ⟨s, front, hfront⟩ := List.exists_cons_of_ne_nil (Text.pieces_ne_nil (· = '.') before)
  obtain ⟨k, back, hback⟩ := List.exists_cons_of_ne_nil (Text.pieces_ne_nil (· = '.') behind)
  rw [hcut, hfront, hback]
  cases front with
  | nil => exact ⟨s, k, back, rfl⟩
  | cons next front => exact ⟨s, next, front ++ k :: back, rfl⟩

end Settings

/-! ## Loaded settings -/

namespace Environment

/-- The variables that may override settings. -/
def marked (environment : Environment) : List (Text × Text) :=
  environment.bindings.filter fun binding => Text.startsWith variableMarker binding.1

/-- That no two of them have names that are the same in small letters. -/
def Distinct (environment : Environment) : Prop :=
  (environment.marked.map fun binding => Text.lower binding.1).Nodup

variable {environment : Environment} {s k : Text} {first second : Text × Text}

theorem Distinct.unique (h : environment.Distinct) (hfirst : first ∈ environment.bindings)
    (hsecond : second ∈ environment.bindings) (hname : Override.Names first.1 s k)
    (hother : Override.Names second.1 s k) : first = second :=
  List.inj_on_of_nodup_map h (List.mem_filter.2 ⟨hfirst, hname.startsWith⟩)
    (List.mem_filter.2 ⟨hsecond, hother.startsWith⟩) (hname.lower_eq.trans hother.lower_eq.symm)

end Environment

section

variable [Yaml.Format]

/-- The layer of settings that a file adds to the defaults: none if no file was chosen or the one
chosen is missing, else what is read from it. -/
inductive AddsLayer (disk : Disk) : Option Path → Settings → Prop
  | unchosen : AddsLayer disk none []
  | missing {file : Path} (h : disk.holds file = .ok false) : AddsLayer disk (some file) []
  | read {file : Path} {layer : Settings} (h : disk.holds file = .ok true)
      (hlayer : (readLayer disk file).outcome = .ok layer) : AddsLayer disk (some file) layer

variable {disk : Disk} {file : Option Path} {layer : Settings} {environment : Environment}

theorem AddsLayer.outcome_loadFile (h : AddsLayer disk file layer) :
    (loadFile disk file).outcome = .ok (Settings.merge .default layer) := by
  cases h with
  | unchosen => rfl
  | missing hmissing => simp [loadFile, hmissing, Run.ofFiles, Settings.merge, Settings.mergeEntries]
  | read hholds hlayer =>
    simp [loadFile, hholds, Run.ofFiles, Run.outcome_andThen, hlayer, Except.bind]

theorem keyed_of_readValue {path : Path} {value : Value}
    (h : (readValue disk path).outcome = .ok value) : value.Keyed := by
  obtain ⟨t, -, hload⟩ := exists_text_of_readValue h
  exact Yaml.Format.keyed hload

theorem keyedEntries_of_readLayer {path : Path} (h : (readLayer disk path).outcome = .ok layer) :
    KeyedEntries layer := by
  obtain ⟨value, hvalue, h⟩ := Run.outcome_andThen_eq_ok_iff.1 h
  split at h
  · cases h
    exact (keyed_of_readValue hvalue).keyedEntries
  · split at h
    · cases h
    · cases h
      exact Yaml.Value.keyedEntries_nil

theorem AddsLayer.keyedEntries (h : AddsLayer disk file layer) : KeyedEntries layer := by
  cases h with
  | unchosen => exact Yaml.Value.keyedEntries_nil
  | missing _ => exact Yaml.Value.keyedEntries_nil
  | read _ hlayer => exact keyedEntries_of_readLayer hlayer

theorem outcome_loadSettings (h : AddsLayer disk file layer) (environment : Environment) :
    (loadSettings disk environment file).outcome =
      .ok ((Settings.merge .default layer).overrideAll (Override.all environment.bindings)) := by
  simp [loadSettings, Run.outcome_andThen, h.outcome_loadFile, Except.bind]

omit [Yaml.Format] in
/-- A setting is what the variable for it says, and what was there if there is none. -/
theorem setting?_overrideAll_all {base : Settings} {s k : Text} (h : base.Unshared)
    (hdistinct : environment.Distinct) :
    (∀ name value, (name, value) ∈ environment.bindings → Override.Names name s k →
      (base.overrideAll (Override.all environment.bindings)).setting? s k =
        some (Override.coerce value)) ∧
    ((∀ name value, (name, value) ∈ environment.bindings → ¬ Override.Names name s k) →
      (base.overrideAll (Override.all environment.bindings)).setting? s k =
        base.setting? s k) := by
  have hvalues : ∀ change ∈ Override.all environment.bindings, change.value.numbers = [] := by
    intro change hchange
    obtain ⟨value, -, hvalue, -⟩ := Override.mem_all_iff.1 hchange
    rw [hvalue, Settings.numbers_coerce]
  have hlast := @Settings.setting?_overrideAll base s k _ h hvalues
  cases hfound : (Override.all environment.bindings).reverse.find? fun change =>
      change.sectionName = s ∧ change.setting = k with
  | some change =>
    rw [hfound] at hlast
    have hsets : change.sectionName = s ∧ change.setting = k := by
      simpa using List.find?_some hfound
    obtain ⟨value, hmem, hvalue, hnames⟩ :=
      Override.mem_all_iff.1 (List.mem_reverse.1 (List.mem_of_find?_eq_some hfound))
    rw [hsets.1, hsets.2] at hnames
    refine ⟨fun name other hother hname => ?_, fun hnone => absurd hnames (hnone _ _ hmem)⟩
    have hsame : value = other :=
      congrArg Prod.snd (hdistinct.unique hmem hother hnames hname)
    rw [hlast, ← hsame, ← hvalue]
  | none =>
    rw [hfound] at hlast
    refine ⟨fun name value hmem hname => ?_, fun _ => hlast⟩
    have hchange : ⟨name, s, k, Override.coerce value⟩ ∈ Override.all environment.bindings :=
      Override.mem_all_iff.2 ⟨value, hmem, rfl, hname⟩
    have hmissed := List.find?_eq_none.1 hfound _ (List.mem_reverse.2 hchange)
    simp at hmissed

/-- The three layers of a setting, whatever the order of the variables. -/
theorem loadSettings_layers (hfile : AddsLayer disk file layer) (hshared : layer.Unshared)
    (hdistinct : environment.Distinct) :
    ∃ settings, (loadSettings disk environment file).outcome = .ok settings ∧
      (∀ s k, '.' ∉ s → '.' ∉ k →
        (∀ name value, (name, value) ∈ environment.bindings → Override.Names name s k →
          settings.get? (s ++ '.' :: k) = some (Override.coerce value)) ∧
        ((∀ name value, (name, value) ∈ environment.bindings → ¬ Override.Names name s k) →
          settings.get? (s ++ '.' :: k) = Settings.layeredSetting? .default layer s k)) ∧
      ∀ shuffled, shuffled.Perm environment.bindings →
        ∃ same, (loadSettings disk { environment with bindings := shuffled } file).outcome =
            .ok same ∧
          ∀ key, '.' ∈ key → same.get? key = settings.get? key := by
  have hmerged := hshared.merge_default
  refine ⟨_, outcome_loadSettings hfile environment, fun s k hs hk => ?_, fun shuffled hperm => ?_⟩
  · rw [Settings.get?_dotted hs hk, ← Settings.setting?_merge hfile.keyedEntries]
    exact setting?_overrideAll_all hmerged hdistinct
  · refine ⟨_, outcome_loadSettings hfile _, fun key hkey => ?_⟩
    obtain ⟨s, k, rest, hpieces⟩ := Settings.exists_pieces_of_dot hkey
    rw [Settings.get?_eq_find? hpieces, Settings.get?_eq_find? hpieces]
    congr 1
    have hshuffled : ({ environment with bindings := shuffled } : Environment).Distinct :=
      ((hperm.filter _).map _).nodup_iff.2 hdistinct
    obtain ⟨hthere, hnone⟩ := @setting?_overrideAll_all environment _ s k hmerged hdistinct
    obtain ⟨hthere', hnone'⟩ := @setting?_overrideAll_all _ _ s k hmerged hshuffled
    by_cases hnamed : ∃ binding ∈ environment.bindings, Override.Names binding.1 s k
    · obtain ⟨⟨name, value⟩, hmem, hname⟩ := hnamed
      rw [hthere name value hmem hname, hthere' name value (hperm.mem_iff.2 hmem) hname]
    · rw [hnone fun name value hmem hname => hnamed ⟨_, hmem, hname⟩,
        hnone' fun name value hmem hname => hnamed ⟨_, hperm.mem_iff.1 hmem, hname⟩]

end

/-- The file takes the defaults of the tags away. A variable gives that section a setting again, and
another one overrides the list of a section that the file leaves as it is. -/
theorem loadSettings_layers_of_replaced_section :
    let file : Path := ⟨.root, ["p".toList, projectFileName]⟩
    let disk : Disk := ⟨(FileSystem.empty.put [] "p".toList .folder).put ["p".toList]
      projectFileName (.file (Utf8.encode "project:\n  source_dir: src\ntags: 3\n".toList)), []⟩
    let environment : Environment :=
      ⟨[("GRAPHCHECK_TAGS_MARK".toList, "7".toList),
        ("GRAPHCHECK_PROJECT_EXCLUDE".toList, "gen".toList)], Path.ofText "/u".toList⟩
    ∃ layer, AddsLayer disk (some file) layer ∧ layer.Unshared ∧ environment.Distinct ∧
      (Settings.layeredSetting? .default layer "tags".toList "prefix".toList).isNone = true ∧
      ∃ settings, (loadSettings disk environment (some file)).outcome = .ok settings ∧
        settings.get? "project.exclude".toList = some (Override.coerce "gen".toList) ∧
        settings.get? "tags.mark".toList = some (Override.coerce "7".toList) ∧
        settings.get? "tags.prefix".toList = none := by
  intro file disk environment
  have hcheck : ((readLayer disk file).outcome.toOption.any fun layer =>
      decide ((Value.numbersOfEntries layer).Nodup) &&
        (Settings.layeredSetting? .default layer "tags".toList "prefix".toList).isNone) = true := by
    decide +kernel
  cases hlayer : (readLayer disk file).outcome with
  | error fault =>
    rw [hlayer] at hcheck
    cases hcheck
  | ok layer =>
    simp only [hlayer, Except.toOption, Option.any_some, Bool.and_eq_true, decide_eq_true_eq]
      at hcheck
    obtain ⟨hshared, hgone⟩ := hcheck
    have hfile : AddsLayer disk (some file) layer := .read (by decide +kernel) hlayer
    have hdistinct : environment.Distinct := by
      rw [Environment.Distinct]
      decide +kernel
    refine ⟨layer, hfile, hshared, hdistinct, hgone, ?_⟩
    obtain ⟨settings, houtcome, hget, -⟩ := loadSettings_layers hfile hshared hdistinct
    have hexclude := (hget "project".toList "exclude".toList (by decide) (by decide)).1
      "GRAPHCHECK_PROJECT_EXCLUDE".toList "gen".toList (by decide)
      ⟨by decide, "PROJECT_EXCLUDE".toList, by decide, by decide +kernel⟩
    have hmark := (hget "tags".toList "mark".toList (by decide) (by decide)).1
      "GRAPHCHECK_TAGS_MARK".toList "7".toList (by decide)
      ⟨by decide, "TAGS_MARK".toList, by decide, by decide +kernel⟩
    have hnone := (hget "tags".toList "prefix".toList (by decide) (by decide)).2 (by
      intro name value hmem hnames
      have hlower := hnames.lower_eq
      rcases List.mem_pair.1 hmem with heq | heq
      · cases heq
        revert hlower
        decide +kernel
      · cases heq
        revert hlower
        decide +kernel)
    exact ⟨settings, houtcome, hexclude, hmark, hnone.trans (Option.isNone_iff_eq_none.1 hgone)⟩

end DocGraph
