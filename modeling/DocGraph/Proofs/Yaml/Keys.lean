import DocGraph.Proofs.Yaml.Entries

/-!
# What makes values one key

Two values are one key if they have the same `Key`: equal texts or bytes, the same day or instant,
or the same number, however it is spelled. Collections have none and are no key to anything. So a
look-up depends on the key of a value only, and an insertion changes what stands at all values with
the key.
-/

namespace DocGraph.Yaml

/-- A day, or an instant of a time with or without a zone. -/
inductive Mark
  | day (d : Date)
  | instant (zoned : Bool) (microseconds : Int)
deriving DecidableEq

/-- What two values have in common that are one key. -/
inductive Key
  | null
  | text (t : Text)
  | bytes (b : Bytes)
  | time (mark : Mark)
  | number (n : Int ⊕ Binary64)
deriving DecidableEq

def Timestamp.mark : Timestamp → Mark
  | date d => .day d
  | moment t => .instant t.offset.isSome t.instant

theorem Timestamp.isSame_iff {s t : Timestamp} : s.isSame t = true ↔ s.mark = t.mark := by
  cases s <;> cases t <;> simp [isSame, DateTime.isSame, mark]

namespace Value

variable {a b key other value new : Value} {entries rest : List (Value × Value)}

/-- The key that a value is, if it is one. -/
def key? : Value → Option Key
  | null => some .null
  | text t => some (.text t)
  | bytes b => some (.bytes b)
  | timestamp t => some (.time t.mark)
  | value => value.number?.map .number

private theorem numbers_beq_iff {m n : Int ⊕ Binary64} : (m == n) = true ↔ m = n := by
  cases m with
  | inl i =>
    cases n with
    | inl j =>
      have hbeq : ((.inl i : Int ⊕ Binary64) == .inl j) = (i == j) := rfl
      simp [hbeq]
    | inr y => exact iff_of_false Bool.false_ne_true Sum.inl_ne_inr
  | inr x =>
    cases n with
    | inl j => exact iff_of_false Bool.false_ne_true Sum.inr_ne_inl
    | inr y =>
      have hbeq : ((.inr x : Int ⊕ Binary64) == .inr y) = (x == y) := rfl
      simp [hbeq]

private theorem differ_of_missing {m n : Option (Int ⊕ Binary64)}
    (h : ∀ i j, m = some i → n = some j → False) :
    false = true ↔ m.map Key.number = n.map Key.number ∧ m.map Key.number ≠ none := by
  cases m with
  | none => simp
  | some i =>
    cases n with
    | none => simp
    | some j => exact (h i j rfl rfl).elim

/-- Values are one key if they have the same key. -/
theorem isSameKey_iff : a.isSameKey b = true ↔ a.key? = b.key? ∧ a.key? ≠ none := by
  cases a with
  | bool | integer | float =>
    cases b with
    | bool | integer | float =>
      simp only [isSameKey, key?]
      split
      · next hm hn => simp [hm, hn, numbers_beq_iff]
      · next hnone => exact differ_of_missing hnone
    | _ => simp [isSameKey, key?, number?]
  | null | text | bytes | timestamp =>
    cases b with
    | float x => cases hx : x.toInteger? <;> simp [isSameKey, key?, number?, hx]
    | _ => simp [isSameKey, key?, number?, Timestamp.isSame_iff]
  | list | pair | set | mapping => simp [isSameKey, key?, number?]

/-! ## Looking up and inserting -/

/-- The values of one key find the same. -/
theorem lookup?_congr (h : a.isSameKey b = true) : lookup? entries a = lookup? entries b := by
  have hfinds : (fun entry : Value × Value => entry.1.isSameKey a) =
      fun entry => entry.1.isSameKey b := by
    funext entry
    rw [Bool.eq_iff_iff, isSameKey_iff, isSameKey_iff, (isSameKey_iff.1 h).1]
  rw [lookup?, lookup?, hfinds]

/-- An insertion is seen by every value of the inserted key, and by no other. -/
theorem lookup?_insert (entries : List (Value × Value)) (key new other : Value) :
    lookup? (insert entries key new) other =
      if key.isSameKey other = true then some new else lookup? entries other := by
  induction entries with
  | nil => exact lookup?_cons key new [] other
  | cons entry rest ih =>
    obtain ⟨name, old⟩ := entry
    rw [insert, lookup?_cons]
    split
    · next hkey =>
      obtain ⟨hsame, hsome⟩ := isSameKey_iff.1 hkey
      have hother : name.isSameKey other = true ↔ key.isSameKey other = true := by
        rw [isSameKey_iff, isSameKey_iff, hsame]
      rw [lookup?_cons]
      simp only [hother]
      split <;> rfl
    · next hkey =>
      rw [lookup?_cons, ih]
      split
      · next hname =>
        -- The entry in front has the other key, which is therefore not the inserted one.
        have hnot : ¬ key.isSameKey other = true := by
          intro hother
          rw [isSameKey_iff] at hkey hname hother
          exact hkey ⟨hname.1.trans hother.1.symm, hname.2⟩
        rw [if_neg hnot]
      · rfl

/-- What is there already can be inserted without a change. -/
theorem insert_of_lookup? (h : lookup? entries key = some value) :
    insert entries key value = entries := by
  induction entries with
  | nil => cases h
  | cons entry rest ih =>
    obtain ⟨name, old⟩ := entry
    rw [lookup?_cons] at h
    rw [insert]
    split
    · next hsame =>
      rw [if_pos hsame] at h
      cases h
      rfl
    · next hdifferent =>
      rw [if_neg hdifferent] at h
      rw [ih h]

/-- Behind an entry nothing stands at its key. -/
theorem DistinctKeys.lookup?_eq_none (h : DistinctKeys ((key, value) :: rest))
    (hother : key.isSameKey other = true) : lookup? rest other = none := by
  rw [lookup?, Option.map_eq_none_iff, List.find?_eq_none]
  intro entry hentry hsame
  have hdistinct := (List.pairwise_cons.1 h).1 entry hentry
  rw [Bool.eq_false_iff, Ne, isSameKey_iff] at hdistinct
  rw [isSameKey_iff] at hother hsame
  exact hdistinct ⟨hother.1.trans hsame.1.symm, hother.2⟩

/-- An entry is found by its key. -/
theorem DistinctKeys.lookup?_of_mem (h : DistinctKeys entries) (hmem : (key, value) ∈ entries)
    (hkey : key.key? ≠ none) : lookup? entries key = some value := by
  induction entries with
  | nil => cases hmem
  | cons entry rest ih =>
    obtain ⟨name, old⟩ := entry
    rw [lookup?_cons]
    rcases List.mem_cons.1 hmem with heq | hrest
    · cases heq
      rw [if_pos (isSameKey_iff.2 ⟨rfl, hkey⟩)]
    · have hfound := ih (List.pairwise_cons.1 h).2 hrest
      have hdifferent : ¬ name.isSameKey key = true := by
        intro hsame
        rw [h.lookup?_eq_none hsame] at hfound
        cases hfound
      rw [if_neg hdifferent, hfound]

end Value

end DocGraph.Yaml
