import DocGraph.Text.Basic
import Mathlib.Data.Char
import Mathlib.Data.List.Lex
import Mathlib.Data.List.Perm.Subperm
import Mathlib.Order.Lattice

/-!
# Code point order

The order of texts is the lexicographic order of lists of characters. So it is total, and two texts
that are each at most the other are equal, which is why texts that are all different are sorted
strictly.
-/

namespace DocGraph

namespace Text

variable {a b c : Text} {texts : List Text} {name : Text}

theorem le_iff : le a b = true ↔ a ≤ b := by
  rw [le_iff_lt_or_eq]
  induction a generalizing b with
  | nil => cases b <;> simp [le]
  | cons x a ih =>
    cases b with
    | nil => simp [le]
    | cons y b =>
      rw [le, List.cons_lt_cons_iff, List.cons.injEq, Bool.or_eq_true, Bool.and_eq_true, ih,
        decide_eq_true_eq, beq_iff_eq, and_or_left, or_assoc]
      rfl

theorem le_total (a b : Text) : (le a b || le b a) = true := by
  rw [Bool.or_eq_true, le_iff, le_iff]
  exact LinearOrder.le_total a b

theorem le_trans (hab : le a b = true) (hbc : le b c = true) : le a c = true :=
  le_iff.2 ((le_iff.1 hab).trans (le_iff.1 hbc))

theorem le_antisymm (hab : le a b = true) (hba : le b a = true) : a = b :=
  (le_iff.1 hab).antisymm (le_iff.1 hba)

@[simp] theorem mem_sort : name ∈ sort texts ↔ name ∈ texts := List.mem_mergeSort

theorem nodup_sort (h : texts.Nodup) : (sort texts).Nodup :=
  (List.mergeSort_perm texts le).nodup_iff.2 h

/-- Different texts are sorted strictly. -/
theorem sort_ascending (h : texts.Nodup) : (sort texts).Pairwise fun a b => le b a = false := by
  have hsorted : (sort texts).Pairwise fun a b => le a b = true :=
    @List.pairwise_mergeSort _ le (fun _ _ _ => le_trans) le_total texts
  apply (hsorted.and (nodup_sort h)).imp
  rintro a b ⟨hab, hne⟩
  rw [Bool.eq_false_iff]
  exact fun hba => hne (le_antisymm hab hba)

/-- With more texts, those that were there keep their order. -/
theorem sort_sublist {more : List Text} (htexts : texts.Nodup) (hmore : more.Nodup)
    (h : texts ⊆ more) : (sort texts).Sublist (sort more) := by
  have hsubset : sort texts ⊆ sort more := fun _ hmem => mem_sort.2 (h (mem_sort.1 hmem))
  obtain ⟨kept, hperm, hkept⟩ := (nodup_sort htexts).subperm hsubset
  -- Both are strictly ascending, and so a permutation of one another only if they are equal.
  have heq : kept = sort texts := by
    refine hperm.eq_of_pairwise ?_ ((sort_ascending hmore).sublist hkept) (sort_ascending htexts)
    intro a b _ _ hba hab
    have htotal := le_total a b
    simp [hba, hab] at htotal
  exact heq ▸ hkept

end Text

theorem nodup_eraseDups {α : Type} [BEq α] [LawfulBEq α] (items : List α) :
    items.eraseDups.Nodup := by
  cases items with
  | nil => simp
  | cons a rest =>
    rw [List.eraseDups_cons, List.nodup_cons]
    exact ⟨by simp [List.mem_eraseDups], nodup_eraseDups _⟩
termination_by items.length
decreasing_by
  have hfilter := List.length_filter_le (fun b => !b == a) rest
  simp only [List.length_cons]
  omega

theorem eraseDups_of_nodup {α : Type} [BEq α] [LawfulBEq α] {items : List α} (h : items.Nodup) :
    items.eraseDups = items := by
  induction items with
  | nil => rfl
  | cons a rest ih =>
    obtain ⟨ha, hrest⟩ := List.nodup_cons.1 h
    have hfilter : rest.filter (fun b => !b == a) = rest := by
      rw [List.filter_eq_self]
      rintro b hb
      simpa using fun hba : b = a => ha (hba ▸ hb)
    rw [List.eraseDups_cons, hfilter, ih hrest]

end DocGraph
