import DocGraph.Config.Override
import DocGraph.Proofs.Number.Written

/-!
# Values that variables spell

A variable spells a truth value or a number where its text can be read as one, and is a text
otherwise. A setting that is used as text gives the text back that the value is written as. This is
the text of the variable if it spells nothing else, or if it is just how its value is written.
-/

namespace DocGraph

open Yaml (Value)

namespace Override

variable {t : Text} {n : Int} {x : Binary64}

/-- The words for truth values, in small letters. -/
def truthWords : List Text := Text.ofStrings ["true", "yes", "false", "no"]

/-- That a text spells neither a truth value nor a number. -/
structure IsPlain (t : Text) : Prop where
  word : Text.lower t ∉ truthWords
  integer : readInteger? t = none
  float : Binary64.read? t = none

/-- The texts that truth values and numbers are written as. -/
inductive IsWritten : Text → Prop
  | truth (b : Bool) : IsWritten (if b then "True" else "False")
  | integer (n : Int) (h : (writeNatural n.natAbs).length ≤ maxDecimalDigits) :
    IsWritten (writeInteger n)
  | float (x : Binary64) (h : x.IsDouble) : IsWritten x.write

/-- A text that is no word for a truth value is read as a number if it can be. -/
theorem coerce_of_not_word (h : Text.lower t ∉ truthWords) :
    coerce t =
      match readInteger? t with
      | some n => .integer n
      | none =>
        match Binary64.read? t with
        | some x => .float x
        | none => .text t := by
  have htrue : ¬ (Text.ofStrings ["true", "yes"]).elem (Text.lower t) = true := by
    intro hword
    exact h (List.mem_append_left (Text.ofStrings ["false", "no"]) (List.elem_iff.1 hword))
  have hfalse : ¬ (Text.ofStrings ["false", "no"]).elem (Text.lower t) = true := by
    intro hword
    exact h (List.mem_append_right (Text.ofStrings ["true", "yes"]) (List.elem_iff.1 hword))
  rw [coerce, if_neg htrue]
  exact if_neg hfalse

theorem coerce_of_word (h : Text.lower t ∈ truthWords) : ∃ b, coerce t = .bool b := by
  by_cases htrue : (Text.ofStrings ["true", "yes"]).elem (Text.lower t) = true
  · exact ⟨true, by rw [coerce, if_pos htrue]⟩
  · have hfalse : (Text.ofStrings ["false", "no"]).elem (Text.lower t) = true := by
      rcases List.mem_append.1 (show _ ∈ Text.ofStrings ["true", "yes"] ++ _ from h) with hyes | hno
      · exact absurd (List.elem_iff.2 hyes) htrue
      · exact List.elem_iff.2 hno
    exact ⟨false, by rw [coerce, if_neg htrue, if_pos hfalse]⟩

theorem IsPlain.coerce (h : IsPlain t) : Override.coerce t = .text t := by
  rw [coerce_of_not_word h.word, h.integer, h.float]

/-- No word for a truth value is made of figures. -/
theorem notMem_truthWords_of_figures (h : ∀ c ∈ t, c ∈ figures) : Text.lower t ∉ truthWords := by
  rw [Text.lower_of_figures h]
  intro hword
  have hall : truthWords.all (·.any fun c => !figures.elem c) = true := by decide
  obtain ⟨c, hc, hfigure⟩ := List.any_eq_true.1 (List.all_eq_true.1 hall t hword)
  simp [h c hc] at hfigure

theorem coerce_writeInteger (h : (writeNatural n.natAbs).length ≤ maxDecimalDigits) :
    coerce (writeInteger n) = .integer n := by
  rw [coerce_of_not_word (notMem_truthWords_of_figures fun c hc => figure_of_mem_writeInteger hc),
    readInteger?_writeInteger, if_pos h]

theorem coerce_write (h : x.IsDouble) : coerce x.write = .float x := by
  rw [coerce_of_not_word (notMem_truthWords_of_figures x.figures_write),
    readInteger?_eq_none x.figures_write x.exists_mark_write, Binary64.read?_write h]

theorem isWritten_of_display (h : (coerce t).display = t) (hplain : ¬ IsPlain t) : IsWritten t := by
  by_cases hword : Text.lower t ∈ truthWords
  · obtain ⟨b, hvalue⟩ := coerce_of_word hword
    rw [hvalue] at h
    exact h ▸ .truth b
  · have hvalue := coerce_of_not_word hword
    cases hinteger : readInteger? t with
    | some n =>
      rw [hinteger] at hvalue
      rw [hvalue] at h
      have hwritten : writeInteger n = t := h
      rw [← hwritten, readInteger?_writeInteger] at hinteger
      rw [← hwritten]
      exact .integer n (by_contra fun hlong => by simp [hlong] at hinteger)
    | none =>
      cases hfloat : Binary64.read? t with
      | some x =>
        rw [hinteger, hfloat] at hvalue
        rw [hvalue] at h
        obtain ⟨y, hdouble, hsame⟩ := Binary64.exists_double_of_read? hfloat
        have hwritten : y.write = t := hsame.trans h
        rw [← hwritten]
        exact .float y hdouble
      | none => exact absurd ⟨hword, hinteger, hfloat⟩ hplain

theorem display_coerce_of_isWritten (h : IsWritten t) : (coerce t).display = t := by
  cases h with
  | truth b => cases b <;> decide +kernel
  | integer n hlength =>
    rw [coerce_writeInteger hlength]
    rfl
  | float x hdouble =>
    rw [coerce_write hdouble]
    rfl

/-- A text comes back exactly if it spells no other value, or is how its value is written. -/
theorem display_coerce_eq_iff : (coerce t).display = t ↔ IsPlain t ∨ IsWritten t := by
  constructor
  · intro h
    by_cases hplain : IsPlain t
    · exact .inl hplain
    · exact .inr (isWritten_of_display h hplain)
  · rintro (hplain | hwritten)
    · rw [hplain.coerce]
      rfl
    · exact display_coerce_of_isWritten hwritten

end Override

end DocGraph
