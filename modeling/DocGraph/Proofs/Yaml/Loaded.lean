import DocGraph.Proofs.Yaml.Entries
import DocGraph.Yaml.Load

/-!
# Loaded values

What a node stands for is found by the recursion of its value: scalars by their kinds, collections
from the values of their parts. A mapping that is found has distinct keys, whatever was written, and
so have the mappings among its values.
-/

namespace DocGraph.Yaml

open Value (Keyed KeyedEntries keyedEntries_nil)

/-! ## Results -/

theorem bind_eq_ok_iff {α β : Type} {first : Except Fault α} {next : α → Except Fault β} {b : β} :
    (first >>= next) = .ok b ↔ ∃ a, first = .ok a ∧ next a = .ok b := by
  cases first <;> simp [bind, Except.bind]

/-- Every result of a list comes from one of its items. -/
theorem exists_of_mem_mapM {α β : Type} {f : α → Except Fault β} {items : List α} {results : List β}
    (h : items.mapM f = .ok results) : ∀ b ∈ results, ∃ a ∈ items, f a = .ok b := by
  induction items generalizing results with
  | nil =>
    cases h
    simp
  | cons a rest ih =>
    rw [List.mapM_cons] at h
    obtain ⟨b, hfirst, h⟩ := bind_eq_ok_iff.1 h
    obtain ⟨more, hrest, h⟩ := bind_eq_ok_iff.1 h
    cases h
    intro other hother
    rcases List.mem_cons.1 hother with rfl | hmem
    · exact ⟨a, List.mem_cons_self, hfirst⟩
    · obtain ⟨item, hitem, hresult⟩ := ih hrest other hmem
      exact ⟨item, List.mem_cons_of_mem _ hitem, hresult⟩

/-! ## Distinct keys -/

theorem isMapping_of_readFloatScalar {t : Text} {value : Value}
    (h : readFloatScalar t = .ok value) : value.isMapping = false := by
  unfold readFloatScalar at h
  dsimp only at h
  split at h
  · cases h
  · split at h
    · cases h
      rfl
    · split at h
      · cases h
        rfl
      · split at h
        · obtain ⟨groups, -, h⟩ := bind_eq_ok_iff.1 h
          obtain ⟨sum, -, hfloat⟩ := bind_eq_ok_iff.1 h
          cases hfloat
          rfl
        · obtain ⟨x, -, hfloat⟩ := bind_eq_ok_iff.1 h
          cases hfloat
          rfl

theorem isMapping_of_scalarValue {kind : Kind} {t : Text} {value : Value}
    (h : scalarValue kind t = .ok value) : value.isMapping = false := by
  unfold scalarValue at h
  split at h
  · cases h
    rfl
  · unfold readBoolScalar at h
    dsimp only at h
    split at h
    · cases h
      rfl
    · split at h <;> cases h
      rfl
  · unfold readIntegerScalar at h
    dsimp only at h
    split at h
    · cases h
    · obtain ⟨n, -, hinteger⟩ := bind_eq_ok_iff.1 h
      cases hinteger
      rfl
  · exact isMapping_of_readFloatScalar h
  · unfold readBinaryScalar at h
    split at h
    · split at h <;> cases h
      rfl
    · cases h
  · unfold readTimestampScalar at h
    split at h
    · cases h
    · split at h <;> cases h
      rfl
  · cases h
    rfl
  · cases h

namespace Node

theorem isMapping_of_valueOfText {node : Node} {t : Text} {value : Value}
    (h : node.valueOfText t = .ok value) : value.isMapping = false := by
  unfold valueOfText at h
  split at h
  · cases h
  · exact isMapping_of_scalarValue h

/-- A value has distinct keys, and so have the entries of a mapping. -/
theorem keyed_value (fuel : Nat) :
    (∀ node value, Node.value fuel node = .ok value → Keyed value) ∧
      ∀ entries values, entryValues fuel entries = .ok values → KeyedEntries values := by
  induction fuel with
  | zero =>
    exact ⟨fun _ _ h => by simp [Node.value] at h, fun _ _ h => by simp [entryValues] at h⟩
  | succ fuel ih =>
    obtain ⟨hvalue, hentries⟩ := ih
    refine ⟨fun node value h => ?_, fun entries values h => ?_⟩
    · unfold Node.value at h
      split at h
      · obtain ⟨t, -, hscalar⟩ := bind_eq_ok_iff.1 h
        exact .other (isMapping_of_valueOfText hscalar)
      · split at h
        · obtain ⟨values, -, hlist⟩ := bind_eq_ok_iff.1 h
          cases hlist
          exact .other rfl
        · obtain ⟨pairs, -, hlist⟩ := bind_eq_ok_iff.1 h
          cases hlist
          exact .other rfl
        · obtain ⟨pairs, -, hlist⟩ := bind_eq_ok_iff.1 h
          cases hlist
          exact .other rfl
        · obtain ⟨entries, hread, hmapping⟩ := bind_eq_ok_iff.1 h
          cases hmapping
          have hkeyed := hentries _ _ hread
          exact .mapping hkeyed.keys hkeyed.values
        · obtain ⟨entries, -, hset⟩ := bind_eq_ok_iff.1 h
          cases hset
          exact .other rfl
        · cases h
    · rw [entryValues] at h
      obtain ⟨merged, -, h⟩ := bind_eq_ok_iff.1 h
      obtain ⟨pairs, hpairs, h⟩ := bind_eq_ok_iff.1 h
      cases h
      refine keyedEntries_nil.foldl_insert fun entry hentry => ?_
      obtain ⟨source, -, hread⟩ := exists_of_mem_mapM hpairs entry hentry
      obtain ⟨key, -, hread⟩ := bind_eq_ok_iff.1 hread
      split at hread
      · obtain ⟨item, hitem, hread⟩ := bind_eq_ok_iff.1 hread
        cases hread
        exact hvalue _ _ hitem
      · cases hread

end Node

/-- What is loaded from a text has distinct keys. -/
theorem keyed_load {t : Text} {value : Value} (h : Value.load t = .ok value) : Keyed value := by
  obtain ⟨tokens, -, h⟩ := bind_eq_ok_iff.1 h
  obtain ⟨node?, -, h⟩ := bind_eq_ok_iff.1 h
  cases node? with
  | none =>
    cases h
    exact .other rfl
  | some node => exact (Node.keyed_value _).1 node value h

end DocGraph.Yaml
