import DocGraph.Config.Override
import DocGraph.Proofs.Yaml.Entries
import Mathlib.Data.List.Nodup

/-!
# Shared mappings

A mapping of a file may stand in several places of it, and an override of a setting in one place is
one in all of them. The numbers of the mappings tell whether this can happen: where no number occurs
twice, a change to the mapping with a number leaves everything else as it is.

Neither a merge nor an override makes a number occur more often.
-/

namespace DocGraph

open Yaml (Value)
open Yaml.Value (insert lookup?)

namespace Yaml.Value

mutual

/-- The numbers of the mappings in a value, for each place at which one stands. -/
def numbers : Value → List Nat
  | .mapping number entries => number.toList ++ numbersOfEntries entries
  | .list items => numbersOfAll items
  | .pair first second => numbers first ++ numbers second
  | _ => []

/-- The numbers of the mappings in some values. -/
def numbersOfAll : List Value → List Nat
  | [] => []
  | value :: rest => numbers value ++ numbersOfAll rest

/-- The numbers of the mappings in the values of some entries. -/
def numbersOfEntries : List (Value × Value) → List Nat
  | [] => []
  | (_, value) :: rest => numbers value ++ numbersOfEntries rest

end

/-- The numbers of the mappings in a value, if there is one. -/
def numbersOf? (value : Option Value) : List Nat := value.elim [] numbers

variable {number : Nat} {entries : List (Value × Value)} {key value : Value}

/-- What is inserted takes the place of what was there. -/
theorem count_numbers_insert (entries : List (Value × Value)) (key value : Value) (number : Nat) :
    (numbersOfEntries (insert entries key value)).count number +
        (numbersOf? (lookup? entries key)).count number =
      (numbersOfEntries entries).count number + value.numbers.count number := by
  induction entries with
  | nil => simp [insert, numbersOfEntries, numbersOf?]
  | cons entry rest ih =>
    obtain ⟨name, old⟩ := entry
    rw [insert, lookup?_cons]
    split
    · simp only [numbersOfEntries, numbersOf?, Option.elim_some, List.count_append]
      omega
    · simp only [numbersOfEntries, List.count_append]
      omega

theorem count_numbers_lookup?_le (entries : List (Value × Value)) (key : Value) (number : Nat) :
    (numbersOf? (lookup? entries key)).count number ≤
      (numbersOfEntries entries).count number := by
  have hinsert := count_numbers_insert entries key .null number
  simp only [numbers, List.count_nil] at hinsert
  omega

/-- Values at two keys stand in two places. -/
theorem count_numbers_lookup?_of_ne {s t : Text} (h : s ≠ t) :
    (numbersOf? (lookup? entries (.text s))).count number +
        (numbersOf? (lookup? entries (.text t))).count number ≤
      (numbersOfEntries entries).count number := by
  -- With the value at the one key gone, the value at the other one is still there.
  have hgone := count_numbers_insert entries (.text s) .null number
  have hthere := count_numbers_lookup?_le (insert entries (.text s) .null) (.text t) number
  rw [lookup?_insert_of_ne entries .null (by simpa using h)] at hthere
  simp only [numbers, List.count_nil] at hgone
  omega

end Yaml.Value

namespace Settings

open Yaml.Value (numbers numbersOfAll numbersOfEntries numbersOf?)

variable {number other : Nat} {key new value : Value} {entries settings base upper : Settings}

/-! ## Setting a key wherever a mapping occurs -/

mutual

/-- A value without the mapping is left as it is. -/
theorem setIn_of_notMem (value : Value) (h : number ∉ numbers value) :
    setIn number key new value = value := by
  match value with
  | .mapping n entries =>
    rw [numbers, List.mem_append, Option.mem_toList, not_or] at h
    rw [setIn, if_neg h.1, setInEntries_of_notMem entries h.2]
  | .list items => rw [setIn, setInAll_of_notMem items (by rwa [numbers] at h)]
  | .pair first second =>
    rw [numbers, List.mem_append, not_or] at h
    rw [setIn, setIn_of_notMem first h.1, setIn_of_notMem second h.2]
  | .null | .bool _ | .integer _ | .float _ | .text _ | .bytes _ | .timestamp _ | .set _ =>
    simp [setIn]

theorem setInAll_of_notMem (items : List Value) (h : number ∉ numbersOfAll items) :
    setInAll number key new items = items := by
  match items with
  | [] => rfl
  | value :: rest =>
    rw [numbersOfAll, List.mem_append, not_or] at h
    rw [setInAll, setIn_of_notMem value h.1, setInAll_of_notMem rest h.2]

theorem setInEntries_of_notMem (entries : List (Value × Value))
    (h : number ∉ numbersOfEntries entries) : setInEntries number key new entries = entries := by
  match entries with
  | [] => rfl
  | (name, value) :: rest =>
    rw [numbersOfEntries, List.mem_append, not_or] at h
    rw [setInEntries, setIn_of_notMem value h.1, setInEntries_of_notMem rest h.2]

end

mutual

/-- A value without mappings adds none, wherever it is set. -/
theorem count_numbers_setIn (hnew : numbers new = []) (value : Value) :
    (numbers (setIn number key new value)).count other ≤ (numbers value).count other := by
  match value with
  | .mapping n entries =>
    rw [setIn]
    split
    · have hinsert := Yaml.Value.count_numbers_insert entries key new other
      rw [hnew] at hinsert
      simp only [numbers, List.count_append, List.count_nil] at hinsert ⊢
      omega
    · have hentries := count_numbers_setInEntries hnew entries
      simp only [numbers, List.count_append]
      omega
  | .list items =>
    have hitems := count_numbers_setInAll hnew items
    simpa only [setIn, numbers] using hitems
  | .pair first second =>
    have hfirst := count_numbers_setIn hnew first
    have hsecond := count_numbers_setIn hnew second
    simp only [setIn, numbers, List.count_append]
    omega
  | .null | .bool _ | .integer _ | .float _ | .text _ | .bytes _ | .timestamp _ | .set _ =>
    simp [setIn]

theorem count_numbers_setInAll (hnew : numbers new = []) (items : List Value) :
    (numbersOfAll (setInAll number key new items)).count other ≤
      (numbersOfAll items).count other := by
  match items with
  | [] => simp [setInAll]
  | value :: rest =>
    have hvalue := count_numbers_setIn hnew value
    have hrest := count_numbers_setInAll hnew rest
    simp only [setInAll, numbersOfAll, List.count_append]
    omega

theorem count_numbers_setInEntries (hnew : numbers new = []) (entries : List (Value × Value)) :
    (numbersOfEntries (setInEntries number key new entries)).count other ≤
      (numbersOfEntries entries).count other := by
  match entries with
  | [] => simp [setInEntries]
  | (name, value) :: rest =>
    have hvalue := count_numbers_setIn hnew value
    have hrest := count_numbers_setInEntries hnew rest
    simp only [setInEntries, numbersOfEntries, List.count_append]
    omega

end

/-! ## Merges and overrides -/

mutual

/-- What is laid over a value adds no more than its own mappings. -/
theorem count_numbers_layered (below : Option Value) (value : Value) :
    (numbers (layered below value)).count other ≤
      (numbersOf? below).count other + (numbers value).count other := by
  match value with
  | .mapping number entries =>
    match below with
    | some (.mapping base old) =>
      have hmerge := count_numbers_mergeEntries old entries
      simp only [layered, numbersOf?, Option.elim_some, numbers, List.count_append]
      omega
    | none | some .null | some (.bool _) | some (.integer _) | some (.float _) | some (.text _)
    | some (.bytes _) | some (.timestamp _) | some (.list _) | some (.pair _ _) | some (.set _) =>
      simp [layered]
  | .null | .bool _ | .integer _ | .float _ | .text _ | .bytes _ | .timestamp _ | .list _
  | .pair _ _ | .set _ => simp [layered]

theorem count_numbers_mergeEntries (base upper : Settings) :
    (numbersOfEntries (mergeEntries base upper)).count other ≤
      (numbersOfEntries base).count other + (numbersOfEntries upper).count other := by
  match upper with
  | [] => simp [mergeEntries]
  | (key, value) :: rest =>
    have hlayered := count_numbers_layered (lookup? base key) value
    have hrest := count_numbers_mergeEntries
      (insert base key (layered (lookup? base key) value)) rest
    have hinsert := Yaml.Value.count_numbers_insert base key
      (layered (lookup? base key) value) other
    simp only [mergeEntries, numbersOfEntries, List.count_append]
    omega

end

/-- That no mapping stands in two places of some settings. -/
def Unshared (settings : Settings) : Prop := (numbersOfEntries settings).Nodup

theorem unshared_iff : Unshared settings ↔ ∀ n, (numbersOfEntries settings).count n ≤ 1 :=
  List.nodup_iff_count_le_one

/-- The defaults are unshared, and so is what they are merged with. -/
theorem Unshared.merge_default (h : Unshared upper) : Unshared (merge default upper) := by
  rw [unshared_iff] at h ⊢
  intro n
  have hmerge := @count_numbers_mergeEntries n default upper
  have hdefault : (numbersOfEntries default).count n = 0 := rfl
  have hupper := h n
  rw [merge]
  omega

/-- An override adds no mapping with a number. -/
theorem Unshared.override {change : Override} (h : Unshared settings)
    (hvalue : numbers change.value = []) : Unshared (settings.override change) := by
  rw [unshared_iff] at h ⊢
  intro n
  have hsettings := h n
  have hinsert := fun value =>
    Yaml.Value.count_numbers_insert settings (.text change.sectionName) value n
  simp only [Settings.override]
  split
  · next entries hlookup =>
    have hreplaced := hinsert (.mapping none (insert entries (.text change.setting) change.value))
    have hentries := Yaml.Value.count_numbers_insert entries (.text change.setting) change.value n
    rw [hlookup] at hreplaced
    rw [hvalue] at hentries
    simp only [numbers, numbersOf?, Option.elim_some, Option.toList_none, List.nil_append,
      List.count_nil] at hreplaced hentries
    omega
  · next number entries hlookup =>
    exact Nat.le_trans (count_numbers_setInEntries hvalue settings) hsettings
  · have hnew := hinsert (.mapping none [(.text change.setting, change.value)])
    simp only [numbers, numbersOfEntries, hvalue, Option.toList_none, List.append_nil,
      List.count_nil] at hnew
    omega

end Settings

end DocGraph
