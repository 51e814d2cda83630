import DocGraph.Graph.Basic
import DocGraph.Java.SourceReader
import DocGraph.Javadoc.Source
import DocGraph.Proofs.Text.Trim

/-!
# Names in a source

A node that is a name is a word of the source, so it holds no dot and no blank. Therefore the
location of a declaration ends in its name whatever stands before it, and the name can be taken from
there.
-/

namespace DocGraph

open Java

/-! ## The characters of names -/

theorem toNat_of_isAlpha {c : Char} (h : c.isAlpha = true) : 0x41 ≤ c.toNat ∧ c.toNat ≤ 0x7A := by
  have hcases : c.isUpper = true ∨ c.isLower = true := Bool.or_eq_true_iff.1 h
  rcases hcases with hupper | hlower
  · have hbounds : 'A'.val ≤ c.val ∧ c.val ≤ 'Z'.val := of_decide_eq_true hupper
    obtain ⟨hfrom, hto⟩ := hbounds
    exact ⟨UInt32.le_iff_toNat_le.1 hfrom, Nat.le_trans (UInt32.le_iff_toNat_le.1 hto) (by decide)⟩
  · have hbounds : decide ('a'.val ≤ c.val) = true ∧ decide (c.val ≤ 'z'.val) = true :=
      Bool.and_eq_true_iff.1 hlower
    obtain ⟨hfrom, hto⟩ := hbounds.imp of_decide_eq_true of_decide_eq_true
    exact ⟨Nat.le_trans (by decide) (UInt32.le_iff_toNat_le.1 hfrom), UInt32.le_iff_toNat_le.1 hto⟩

/-- In ASCII, only the dollar sign comes before the digits among the characters of words. -/
theorem code_of_isWordPart {c : Char} (h : Lexeme.isWordPart c = true) :
    c.toNat = 0x24 ∨ (0x30 ≤ c.toNat ∧ c.toNat < 0x80) ∨ (0x80 ≤ c.toNat ∧ isBlank c = false) := by
  simp only [Lexeme.isWordPart, Lexeme.isWordStart, Bool.or_eq_true, Bool.and_eq_true,
    Bool.not_eq_true', decide_eq_true_eq] at h
  rcases h with (((halpha | rfl) | rfl) | hhigh) | hdigit
  · have hcode := toNat_of_isAlpha halpha
    omega
  · decide
  · decide
  · exact .inr (.inr hhigh)
  · have hcode := Char.isDigit_iff_toNat.1 hdigit
    have h0 : '0'.toNat = 0x30 := rfl
    have h9 : '9'.toNat = 0x39 := rfl
    omega

theorem ne_dot_of_plain {c : Char} (h : (Lexeme.isWordPart c || c == '-') = true) : c ≠ '.' := by
  rintro rfl
  revert h
  decide

theorem isBlank_of_plain {c : Char} (h : (Lexeme.isWordPart c || c == '-') = true) :
    isBlank c = false := by
  rw [Bool.or_eq_true, beq_iff_eq] at h
  rcases h with hpart | rfl
  · rw [Bool.eq_false_iff]
    intro hblank
    have hcode : c.toNat ≤ 0x20 ∨ 0x85 ≤ c.toNat := by
      simp only [isBlank, inTable, blankRanges, List.any_cons, List.any_nil, CodeRange.has,
        Bool.or_false, Bool.or_eq_true, Bool.and_eq_true, decide_eq_true_eq] at hblank
      omega
    rcases code_of_isWordPart hpart with hdollar | hascii | ⟨-, hnot⟩
    · omega
    · omega
    · rw [hnot] at hblank
      cases hblank
  · decide

/-! ## Locations -/

/-- The name of a declaration is the last part of its location, whatever its package. -/
theorem unqualified_qualified (package : Text) {name : Text} (h : isPlainName name = true) :
    unqualified (qualified package name) = name := by
  rw [isPlainName, List.all_eq_true] at h
  have hdots : ∀ c ∈ name.reverse, decide (c ≠ '.') = true := by
    intro c hc
    exact decide_eq_true (ne_dot_of_plain (h c (List.mem_reverse.1 hc)))
  have hlast : (qualified package name).reverse.takeWhile (· ≠ '.') = name.reverse := by
    rw [qualified]
    split
    · have hall := @List.takeWhile_append_of_pos _ _ _ [] hdots
      rwa [List.append_nil, List.takeWhile_nil, List.append_nil] at hall
    · rw [List.reverse_append, List.reverse_cons, List.append_assoc,
        List.takeWhile_append_of_pos hdots]
      simp
  rw [unqualified, hlast, List.reverse_reverse]
  exact Text.trim_eq_self fun c hc => isBlank_of_plain (h c hc)

/-- Every declaration of a source is named by its location. -/
theorem unqualified_typeLocation [SourceReader] {source : Text} {visit : Visit}
    (h : visit ∈ (readSource source).root.visits) (package : Text) :
    unqualified (typeLocation package visit) = visit.node.declaredName :=
  unqualified_qualified package (SourceReader.plainNames h)

end DocGraph
