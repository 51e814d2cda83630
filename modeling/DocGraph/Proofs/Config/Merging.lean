import DocGraph.Config.Settings
import DocGraph.Proofs.Yaml.Keys

/-!
# Merged settings

A merge is told by what stands at the end of each way through the mappings, whichever keys lead it.
Two mappings at the end of a way are merged in turn, and otherwise what the upper layer says there
is what counts. Where it says nothing the lower layer counts, unless the upper one has put something
else than a mapping on the way, which takes everything behind it away.

What has been laid over other settings is part of them, so laying it over them again changes
nothing.
-/

namespace DocGraph

open Yaml (Value)
open Yaml.Value (insert lookup? DistinctKeys)

namespace Yaml.Value

/-- That every mapping on the ways through a value has keys that can be told apart, each of them
once. -/
inductive HasKeys : Value → Prop
  | mapping {number : Option Nat} {entries : List (Value × Value)}
      (hdistinct : DistinctKeys entries) (hkeys : ∀ entry ∈ entries, entry.1.key? ≠ none)
      (hvalues : ∀ entry ∈ entries, HasKeys entry.2) : HasKeys (.mapping number entries)
  | other {value : Value} (h : value.isMapping = false) : HasKeys value

end Yaml.Value

open Yaml.Value (HasKeys)

namespace Settings

variable {base upper settings entries old new : Settings} {key value inner : Value}
  {below : Option Value} {number other : Option Nat} {path rest before after : List Value}

/-! ## Ways through mappings -/

/-- The value at the end of a way, led by any keys. -/
def valueAt? : Value → List Value → Option Value
  | value, [] => some value
  | .mapping _ entries, key :: rest => (lookup? entries key).bind fun inner => valueAt? inner rest
  | _, _ :: _ => none

/-- The value at the end of a way through settings. -/
def at? (settings : Settings) (path : List Value) : Option Value :=
  valueAt? (.mapping none settings) path

theorem valueAt?_of_not_mapping (h : value.isMapping = false) :
    valueAt? value (key :: rest) = none := by
  cases value with
  | mapping => cases h
  | _ => rfl

theorem find?_eq_valueAt? (value : Value) (names : List Text) :
    find? value names = valueAt? value (names.map .text) := by
  induction names generalizing value with
  | nil => rfl
  | cons name rest ih =>
    cases value with
    | mapping number entries =>
      rw [find?, List.map_cons, valueAt?]
      cases lookup? entries (.text name) with
      | none => rfl
      | some inner => exact ih inner
    | _ => rfl

/-- A setting is looked up by the way that its name spells. -/
theorem get?_eq_at? (settings : Settings) (name : Text) :
    settings.get? name = settings.at? ((Text.pieces (· = '.') name).map .text) :=
  find?_eq_valueAt? _ _

theorem valueAt?_append (value : Value) (before after : List Value) :
    valueAt? value (before ++ after) =
      (valueAt? value before).bind fun inner => valueAt? inner after := by
  induction before generalizing value with
  | nil => rfl
  | cons key before ih =>
    cases value with
    | mapping number entries =>
      rw [List.cons_append, valueAt?, valueAt?]
      cases lookup? entries key with
      | none => rfl
      | some inner => exact ih inner
    | _ => rfl

/-- That mappings stand all along a way and at its end. -/
def HoldsMappings (settings : Settings) (path : List Value) : Prop :=
  ∀ before after, path = before ++ after →
    ∃ number entries, settings.at? before = some (.mapping number entries)

/-- That something else than a mapping stands on a way before its end. -/
def CutOff (value : Value) (path : List Value) : Prop :=
  ∃ before key after inner, path = before ++ key :: after ∧ valueAt? value before = some inner ∧
    inner.isMapping = false

theorem CutOff.valueAt?_eq_none (h : CutOff value path) : valueAt? value path = none := by
  obtain ⟨before, key, after, inner, rfl, hinner, hother⟩ := h
  rw [valueAt?_append, hinner, Option.bind_some, valueAt?_of_not_mapping hother]

theorem CutOff.ne_nil (h : CutOff value path) : path ≠ [] := by
  obtain ⟨before, key, after, -, rfl, -⟩ := h
  simp

theorem cutOff_cons_iff : CutOff (.mapping number entries) (key :: rest) ↔
    ∃ inner, lookup? entries key = some inner ∧ CutOff inner rest := by
  constructor
  · rintro ⟨before, next, after, inner, hpath, hinner, hother⟩
    cases before with
    | nil =>
      cases hinner
      cases hother
    | cons first before =>
      obtain ⟨rfl, rfl⟩ : key = first ∧ rest = before ++ next :: after := by simpa using hpath
      obtain ⟨found, hfound, hinner⟩ := Option.bind_eq_some_iff.1 hinner
      exact ⟨found, hfound, before, next, after, inner, rfl, hinner, hother⟩
  · rintro ⟨found, hfound, before, next, after, inner, rfl, hinner, hother⟩
    refine ⟨key :: before, next, after, inner, rfl, ?_, hother⟩
    rw [valueAt?, hfound, Option.bind_some, hinner]

/-- A way that ends at a mapping goes through mappings. -/
theorem exists_mapping_of_valueAt?
    (h : valueAt? value (before ++ after) = some (.mapping number old)) :
    ∃ other new, valueAt? value before = some (.mapping other new) := by
  rw [valueAt?_append] at h
  obtain ⟨inner, hinner, hafter⟩ := Option.bind_eq_some_iff.1 h
  cases after with
  | nil =>
    cases hafter
    exact ⟨_, _, hinner⟩
  | cons key after =>
    cases inner with
    | mapping other new => exact ⟨_, _, hinner⟩
    | _ => cases hafter

theorem holdsMappings_iff :
    settings.HoldsMappings path ↔ ∃ number old, settings.at? path = some (.mapping number old) := by
  constructor
  · exact fun h => h path [] (List.append_nil path).symm
  · rintro ⟨number, old, h⟩ before after rfl
    exact exists_mapping_of_valueAt? h

/-! ## One layer over another -/

/-- Unless both are mappings, the upper value takes the place of what was below it. -/
theorem layered_eq_self (h : ∀ number old other new, below = some (.mapping number old) →
    value ≠ .mapping other new) : layered below value = value := by
  cases value with
  | mapping other new =>
    rw [layered]
    exact fun number old hbelow => h number old other new hbelow rfl
  | _ => rfl

/-- What stands at a key after a merge: what the upper layer says, laid over what was there. -/
theorem lookup?_mergeEntries (h : DistinctKeys upper) (key : Value) :
    lookup? (mergeEntries base upper) key =
      match lookup? upper key with
      | some value => some (layered (lookup? base key) value)
      | none => lookup? base key := by
  induction upper generalizing base with
  | nil => rfl
  | cons entry rest ih =>
    obtain ⟨name, value⟩ := entry
    rw [mergeEntries, ih (List.pairwise_cons.1 h).2, Yaml.Value.lookup?_insert,
      Yaml.Value.lookup?_cons]
    by_cases hname : name.isSameKey key = true
    · rw [h.lookup?_eq_none hname, if_pos hname, if_pos hname, Yaml.Value.lookup?_congr hname]
    · rw [if_neg hname, if_neg hname]

/-- What stands at the end of a way where one value is laid over what was below it. -/
structure LiesOver (below : Option Value) (upper : Value) (path : List Value) : Prop where
  merges : ∀ number old other new,
    (below.bind fun value => valueAt? value path) = some (.mapping number old) →
      valueAt? upper path = some (.mapping other new) →
      valueAt? (layered below upper) path = some (.mapping number (merge old new))
  replaces : ∀ value, valueAt? upper path = some value →
    (∀ number old other new,
      (below.bind fun value => valueAt? value path) = some (.mapping number old) →
      value ≠ .mapping other new) →
    valueAt? (layered below upper) path = some value
  keeps : valueAt? upper path = none → ¬ CutOff upper path →
    valueAt? (layered below upper) path = below.bind fun value => valueAt? value path
  hides : CutOff upper path → valueAt? (layered below upper) path = none

/-- The way goes on through both mappings: what stands behind their common key is laid over what
stood there. -/
theorem LiesOver.cons (hdistinct : DistinctKeys new) (hfound : lookup? new key = some inner)
    (h : LiesOver (lookup? old key) inner rest) :
    LiesOver (some (.mapping number old)) (.mapping other new) (key :: rest) := by
  have hupper : valueAt? (.mapping other new) (key :: rest) = valueAt? inner rest := by
    rw [valueAt?, hfound, Option.bind_some]
  have hmerged :
      valueAt? (layered (some (.mapping number old)) (.mapping other new)) (key :: rest) =
        valueAt? (layered (lookup? old key) inner) rest := by
    rw [layered, valueAt?, lookup?_mergeEntries hdistinct, hfound, Option.bind_some]
  have hcut : CutOff (.mapping other new) (key :: rest) ↔ CutOff inner rest := by
    rw [cutOff_cons_iff, hfound]
    simp
  refine ⟨fun number old other new hbelow hvalue => ?_, fun value hvalue hnot => ?_,
    fun hnone hopen => ?_, fun hclosed => ?_⟩
  · rw [hupper] at hvalue
    rw [hmerged]
    exact h.merges number old other new hbelow hvalue
  · rw [hupper] at hvalue
    rw [hmerged]
    exact h.replaces value hvalue hnot
  · rw [hupper] at hnone
    rw [hmerged]
    exact h.keeps hnone fun hclosed => hopen (hcut.2 hclosed)
  · rw [hmerged]
    exact h.hides (hcut.1 hclosed)

/-- The upper mapping says nothing at the next key. -/
theorem LiesOver.missing (hdistinct : DistinctKeys new) (hmissing : lookup? new key = none) :
    LiesOver (some (.mapping number old)) (.mapping other new) (key :: rest) := by
  have hupper : valueAt? (.mapping other new) (key :: rest) = none := by
    rw [valueAt?, hmissing, Option.bind_none]
  have hmerged :
      valueAt? (layered (some (.mapping number old)) (.mapping other new)) (key :: rest) =
        valueAt? (.mapping number old) (key :: rest) := by
    rw [layered, valueAt?, valueAt?, lookup?_mergeEntries hdistinct, hmissing]
  refine ⟨fun _ _ _ _ _ hvalue => ?_, fun _ hvalue => ?_, fun _ _ => hmerged, fun hclosed => ?_⟩
  · rw [hupper] at hvalue
    cases hvalue
  · rw [hupper] at hvalue
    cases hvalue
  · obtain ⟨inner, hfound, -⟩ := cutOff_cons_iff.1 hclosed
    rw [hmissing] at hfound
    cases hfound

/-- Unless both are mappings, there is nothing left of the lower value. -/
theorem LiesOver.replacing (h : ∀ number old other new, below = some (.mapping number old) →
    value ≠ .mapping other new) : LiesOver below value path := by
  have hmerged := layered_eq_self h
  refine ⟨fun number old other new hbelow hvalue => ?_, fun found hvalue _ => ?_,
    fun hnone hopen => ?_, fun hclosed => ?_⟩
  · obtain ⟨under, hunder, hbelow⟩ := Option.bind_eq_some_iff.1 hbelow
    obtain ⟨_, _, hlower⟩ := @exists_mapping_of_valueAt? _ _ _ [] path hbelow
    obtain ⟨_, _, hupper⟩ := @exists_mapping_of_valueAt? _ _ _ [] path hvalue
    cases hlower
    cases hupper
    exact absurd rfl (h _ _ _ _ hunder)
  · rw [hmerged, hvalue]
  · rw [hmerged, hnone]
    cases path with
    | nil => cases hnone
    | cons key rest =>
      have hmapping : value.isMapping = true := by
        rw [← Bool.not_eq_false]
        exact fun hother => hopen ⟨[], key, rest, value, rfl, rfl, hother⟩
      cases value with
      | mapping other new =>
        cases below with
        | none => rfl
        | some under =>
          cases under with
          | mapping number old => exact absurd rfl (h number old other new rfl)
          | _ => rfl
      | _ => cases hmapping
  · rw [hmerged, hclosed.valueAt?_eq_none]

theorem liesOver (h : HasKeys value) (below : Option Value) (path : List Value) :
    LiesOver below value path := by
  induction path generalizing below value with
  | nil =>
    refine ⟨fun number old other new hbelow hvalue => ?_, fun found hvalue hnot => ?_,
      fun hnone => ?_, fun hcut => absurd rfl hcut.ne_nil⟩
    · cases hvalue
      cases below with
      | none => cases hbelow
      | some under =>
        cases hbelow
        rfl
    · cases hvalue
      refine congrArg some (layered_eq_self fun number old other new hbelow => ?_)
      exact hnot number old other new (by rw [hbelow]; rfl)
    · cases hnone
  | cons key rest ih =>
    cases h with
    | other hother =>
      exact .replacing fun number old other new _ hvalue => by rw [hvalue] at hother; cases hother
    | @mapping other new hdistinct hkeys hvalues =>
      cases below with
      | none => exact .replacing fun _ _ _ _ hbelow => by cases hbelow
      | some under =>
        cases under with
        | mapping number old =>
          cases hfound : lookup? new key with
          | none => exact .missing hdistinct hfound
          | some inner =>
            obtain ⟨entry, hentry, hinner⟩ := Yaml.Value.exists_of_lookup? hfound
            exact .cons hdistinct hfound (ih (hinner ▸ hvalues entry hentry) _)
        | _ => exact .replacing fun _ _ _ _ hbelow => by cases hbelow

/-! ## The same layer again -/

theorem layered_of_not_mapping (h : value.isMapping = false) (below : Option Value) :
    layered below value = value :=
  layered_eq_self fun _ _ _ _ _ hvalue => by
    rw [hvalue] at h
    cases h

/-- A merge changes nothing where each value lies over what is there already. -/
theorem mergeEntries_eq_self (h : ∀ entry ∈ upper, ∃ value,
    lookup? base entry.1 = some value ∧ layered (some value) entry.2 = value) :
    mergeEntries base upper = base := by
  induction upper with
  | nil => rfl
  | cons entry rest ih =>
    obtain ⟨key, new⟩ := entry
    obtain ⟨value, hvalue, hlayered⟩ := h (key, new) List.mem_cons_self
    rw [mergeEntries, hvalue, hlayered, Yaml.Value.insert_of_lookup? hvalue]
    exact ih fun other hother => h other (List.mem_cons_of_mem _ hother)

theorem layered_self (h : HasKeys value) : layered (some value) value = value := by
  induction h with
  | @mapping number entries hdistinct hkeys hvalues ih =>
    rw [layered, mergeEntries_eq_self]
    intro entry hentry
    exact ⟨entry.2, hdistinct.lookup?_of_mem hentry (hkeys entry hentry), ih entry hentry⟩
  | other hother => exact layered_of_not_mapping hother _

theorem layered_layered (h : HasKeys value) (below : Option Value) :
    layered (some (layered below value)) value = layered below value := by
  induction h generalizing below with
  | @mapping number entries hdistinct hkeys hvalues ih =>
    by_cases hbelow : ∃ base old, below = some (.mapping base old)
    · obtain ⟨base, old, rfl⟩ := hbelow
      rw [layered, layered, mergeEntries_eq_self]
      intro entry hentry
      have hfound := hdistinct.lookup?_of_mem hentry (hkeys entry hentry)
      refine ⟨layered (lookup? old entry.1) entry.2, ?_, ih entry hentry _⟩
      rw [lookup?_mergeEntries hdistinct, hfound]
    · rw [layered_eq_self fun base old _ _ hmapping => absurd ⟨base, old, hmapping⟩ hbelow]
      exact layered_self (.mapping hdistinct hkeys hvalues)
  | other hother => rw [layered_of_not_mapping hother, layered_of_not_mapping hother]

/-! ## Merged settings -/

/-- The settings at the end of every way after a merge, and after the same merge again. -/
theorem merge_pointwise (base : Settings) {upper : Settings} (h : HasKeys (.mapping none upper)) :
    (∀ path,
      (∀ number old other new, base.at? path = some (.mapping number old) →
        upper.at? path = some (.mapping other new) →
        (merge base upper).at? path = some (.mapping number (merge old new))) ∧
      (∀ value, upper.at? path = some value →
        ¬ (base.HoldsMappings path ∧ upper.HoldsMappings path) →
        (merge base upper).at? path = some value) ∧
      (upper.at? path = none → ¬ CutOff (.mapping none upper) path →
        (merge base upper).at? path = base.at? path) ∧
      (CutOff (.mapping none upper) path → (merge base upper).at? path = none)) ∧
    merge (merge base upper) upper = merge base upper := by
  refine ⟨fun path => ?_, ?_⟩
  · have hlies := liesOver h (some (.mapping none base)) path
    refine ⟨hlies.merges, fun value hvalue hnot => ?_, hlies.keeps, hlies.hides⟩
    refine hlies.replaces value hvalue fun number old other new hbelow heq => hnot ?_
    rw [heq] at hvalue
    exact ⟨holdsMappings_iff.2 ⟨number, old, hbelow⟩, holdsMappings_iff.2 ⟨other, new, hvalue⟩⟩
  · have hagain := layered_layered h (some (.mapping none base))
    rw [layered, layered] at hagain
    injection hagain

/-- Two sections are one where their keys are equal as numbers, and the one that is replaced by a
number is gone with all that was in it. -/
theorem merge_pointwise_of_numbered_section :
    let inner : Settings := [(.text "x".toList, .integer 1)]
    let added : Settings := [(.text "y".toList, .integer 2)]
    let base : Settings :=
      [(.bool true, .mapping none
          [(.text "a".toList, .null), (.text "b".toList, .mapping (some 4) inner)]),
        (.text "s".toList, .mapping none [(.text "t".toList, .null)])]
    let upper : Settings :=
      [(.integer 1, .mapping none [(.text "b".toList, .mapping none added)]),
        (.text "s".toList, .integer 3)]
    HasKeys (.mapping none upper) ∧
      (merge base upper).at? [.integer 1, .text "b".toList] =
        some (.mapping (some 4) (merge inner added)) ∧
      (merge base upper).at? [.text "s".toList] = some (.integer 3) ∧
      (merge base upper).at? [.integer 1, .text "a".toList] = some .null ∧
      (merge base upper).at? [.text "s".toList, .text "t".toList] = none ∧
      merge (merge base upper) upper = merge base upper := by
  intro inner added base upper
  have hadded : HasKeys (.mapping none added) :=
    .mapping (List.pairwise_singleton _ _) (by decide)
      (List.forall_mem_cons.2 ⟨.other rfl, List.forall_mem_nil _⟩)
  have hsection : HasKeys (.mapping none [(.text "b".toList, .mapping none added)]) :=
    .mapping (List.pairwise_singleton _ _) (by decide)
      (List.forall_mem_cons.2 ⟨hadded, List.forall_mem_nil _⟩)
  have hupper : HasKeys (.mapping none upper) :=
    .mapping (by rw [DistinctKeys]; decide) (by decide) (List.forall_mem_cons.2
      ⟨hsection, List.forall_mem_cons.2 ⟨.other rfl, List.forall_mem_nil _⟩⟩)
  obtain ⟨hways, hagain⟩ := merge_pointwise base hupper
  have hnumber : ¬ upper.HoldsMappings [.text "s".toList] := by
    intro hholds
    obtain ⟨number, old, hmapping⟩ := holdsMappings_iff.1 hholds
    cases hmapping
  have hopen : ¬ CutOff (.mapping none upper) [.integer 1, .text "a".toList] := by
    intro hcut
    obtain ⟨found, hfound, hcut⟩ := cutOff_cons_iff.1 hcut
    cases hfound
    obtain ⟨missing, hmissing, -⟩ := cutOff_cons_iff.1 hcut
    cases hmissing
  refine ⟨hupper, ?_, ?_, ?_, ?_, hagain⟩
  · exact (hways _).1 (some 4) inner none added rfl rfl
  · exact (hways _).2.1 (.integer 3) rfl fun hboth => hnumber hboth.2
  · exact ((hways _).2.2.1 rfl hopen).trans rfl
  · exact (hways _).2.2.2 ⟨[.text "s".toList], .text "t".toList, [], .integer 3, rfl, rfl, rfl⟩

end Settings

end DocGraph
