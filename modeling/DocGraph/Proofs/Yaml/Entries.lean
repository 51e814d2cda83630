import DocGraph.Yaml.Format

/-!
# Entries of mappings

No two entries of a mapping have the same key, and so what stands at a key is the one entry with it.
Insertion keeps this, and changes what stands at the inserted key and nothing else. Texts are the
keys that settings are looked up by, and a text is the same key as itself only.
-/

namespace DocGraph.Yaml

namespace Value

variable {entries rest : List (Value × Value)} {name key value : Value} {t : Text}

/-! ## Texts as keys -/

theorem isSameKey_text_iff : key.isSameKey (.text t) = true ↔ key = .text t := by
  cases key <;> simp [isSameKey, number?]

theorem text_isSameKey_iff : (text t).isSameKey key = true ↔ key = .text t := by
  cases key with
  | text s => exact isSameKey_text_iff.trans eq_comm
  | null | bool | integer | float | bytes | timestamp | list | pair | set | mapping =>
    simp [isSameKey, number?]

@[simp] theorem lookup?_nil (key : Value) : lookup? [] key = none := rfl

theorem lookup?_cons (name value : Value) (rest : List (Value × Value)) (key : Value) :
    lookup? ((name, value) :: rest) key =
      if name.isSameKey key = true then some value else lookup? rest key := by
  rw [lookup?, lookup?, List.find?_cons]
  cases name.isSameKey key <;> rfl

theorem lookup?_cons_self (value : Value) (rest : List (Value × Value)) (t : Text) :
    lookup? ((.text t, value) :: rest) (.text t) = some value := by
  rw [lookup?_cons, if_pos (isSameKey_text_iff.2 rfl)]

theorem lookup?_cons_of_ne (h : name ≠ .text t) :
    lookup? ((name, value) :: rest) (.text t) = lookup? rest (.text t) := by
  rw [lookup?_cons, if_neg fun hsame => h (isSameKey_text_iff.1 hsame)]

theorem lookup?_insert_self (entries : List (Value × Value)) (value : Value) (t : Text) :
    lookup? (insert entries (.text t) value) (.text t) = some value := by
  induction entries with
  | nil => exact lookup?_cons_self value [] t
  | cons entry rest ih =>
    obtain ⟨name, old⟩ := entry
    by_cases hsame : name.isSameKey (.text t) = true
    · rw [insert, if_pos hsame, isSameKey_text_iff.1 hsame]
      exact lookup?_cons_self value rest t
    · rw [insert, if_neg hsame, lookup?_cons_of_ne fun heq => hsame (isSameKey_text_iff.2 heq), ih]

theorem lookup?_insert_of_ne (entries : List (Value × Value)) (value : Value)
    (h : key ≠ .text t) :
    lookup? (insert entries key value) (.text t) = lookup? entries (.text t) := by
  induction entries with
  | nil => exact lookup?_cons_of_ne h
  | cons entry rest ih =>
    obtain ⟨name, old⟩ := entry
    by_cases hsame : name.isSameKey key = true
    · have hname : name ≠ .text t := by
        rintro rfl
        exact h (text_isSameKey_iff.1 hsame)
      rw [insert, if_pos hsame, lookup?_cons_of_ne hname, lookup?_cons_of_ne hname]
    · rw [insert, if_neg hsame]
      by_cases hname : name = .text t
      · rw [hname, lookup?_cons_self, lookup?_cons_self]
      · rw [lookup?_cons_of_ne hname, lookup?_cons_of_ne hname, ih]

theorem exists_of_lookup? (h : lookup? entries key = some value) :
    ∃ entry ∈ entries, entry.2 = value := by
  obtain ⟨entry, hentry, rfl⟩ := Option.map_eq_some_iff.1 h
  exact ⟨entry, List.mem_of_find?_eq_some hentry, rfl⟩

/-! ## Distinct keys -/

theorem mem_insert {entry : Value × Value} (h : entry ∈ insert entries key value) :
    entry ∈ entries ∨ entry.2 = value ∧ (entry.1 = key ∨ ∃ old ∈ entries, old.1 = entry.1) := by
  induction entries with
  | nil =>
    rw [List.mem_singleton.1 h]
    exact .inr ⟨rfl, .inl rfl⟩
  | cons first rest ih =>
    rw [insert] at h
    split at h
    · rcases List.mem_cons.1 h with rfl | hrest
      · exact .inr ⟨rfl, .inr ⟨first, List.mem_cons_self, rfl⟩⟩
      · exact .inl (List.mem_cons_of_mem _ hrest)
    · rcases List.mem_cons.1 h with rfl | hrest
      · exact .inl List.mem_cons_self
      · rcases ih hrest with hmem | ⟨hvalue, hkey | ⟨old, hold, hname⟩⟩
        · exact .inl (List.mem_cons_of_mem _ hmem)
        · exact .inr ⟨hvalue, .inl hkey⟩
        · exact .inr ⟨hvalue, .inr ⟨old, List.mem_cons_of_mem _ hold, hname⟩⟩

theorem DistinctKeys.insert (h : DistinctKeys entries) (key value : Value) :
    DistinctKeys (insert entries key value) := by
  induction entries with
  | nil => exact List.pairwise_singleton _ _
  | cons first rest ih =>
    obtain ⟨hfirst, hrest⟩ := List.pairwise_cons.1 h
    rw [Value.insert]
    split
    · exact List.pairwise_cons.2 ⟨hfirst, hrest⟩
    · next hother =>
      refine List.pairwise_cons.2 ⟨fun entry hentry => ?_, ih hrest⟩
      rcases mem_insert hentry with hmem | ⟨-, hkey | ⟨old, hold, hname⟩⟩
      · exact hfirst entry hmem
      · rw [hkey]
        exact Bool.not_eq_true _ ▸ hother
      · rw [← hname]
        exact hfirst old hold

/-- That entries have distinct keys, and the mappings among their values too. -/
structure KeyedEntries (entries : List (Value × Value)) : Prop where
  keys : DistinctKeys entries
  values : ∀ entry ∈ entries, Keyed entry.2

theorem Keyed.keyedEntries {number : Option Nat} (h : Keyed (.mapping number entries)) :
    KeyedEntries entries := by
  cases h with
  | mapping hkeys hvalues => exact ⟨hkeys, hvalues⟩
  | other hother => cases hother

theorem keyedEntries_nil : KeyedEntries [] := ⟨List.Pairwise.nil, by simp⟩

theorem KeyedEntries.insert (h : KeyedEntries entries) (key : Value) (hvalue : Keyed value) :
    KeyedEntries (insert entries key value) := by
  refine ⟨h.keys.insert key value, fun entry hentry => ?_⟩
  rcases mem_insert hentry with hmem | ⟨heq, -⟩
  · exact h.values entry hmem
  · exact heq ▸ hvalue

theorem KeyedEntries.foldl_insert (h : KeyedEntries entries) {added : List (Value × Value)}
    (hadded : ∀ entry ∈ added, Keyed entry.2) :
    KeyedEntries (added.foldl (fun entries entry => Value.insert entries entry.1 entry.2)
      entries) := by
  induction added generalizing entries with
  | nil => exact h
  | cons entry added ih =>
    exact ih (h.insert entry.1 (hadded entry List.mem_cons_self)) fun other hother =>
      hadded other (List.mem_cons_of_mem _ hother)

end Value

end DocGraph.Yaml
