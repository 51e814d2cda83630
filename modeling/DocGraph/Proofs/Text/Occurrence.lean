import DocGraph.Text.Basic
import Mathlib.Data.List.Infix

/-!
# Occurrences

A text occurs in another if it is an infix of it. An occurrence cannot run across a character that
it does not hold, so it lies in one of the pieces between such characters.

`EndsFirst` says that a marker appended to a text occurs there for the first time. Where the first
character of the marker does not come back in it, this only asks that the text is free of it.
-/

namespace DocGraph

namespace Text

variable {sub marker a b t rest separator : Text} {c : Char} {parts : List Text}

/-! ## Pieces -/

theorem prefix_of_prefix_append_cons (hc : c ∉ sub) (h : sub <+: a ++ c :: b) : sub <+: a := by
  induction a generalizing sub with
  | nil =>
    cases sub with
    | nil => exact List.prefix_refl _
    | cons d sub =>
      have hd : d = c := (List.cons_prefix_cons.1 h).1
      exact absurd (hd ▸ List.mem_cons_self) hc
  | cons x a ih =>
    cases sub with
    | nil => exact List.nil_prefix
    | cons d sub =>
      obtain ⟨hd, htail⟩ := List.cons_prefix_cons.1 h
      rw [hd]
      exact List.cons_prefix_cons.2 ⟨rfl, ih (fun hmem => hc (List.mem_cons_of_mem _ hmem)) htail⟩

/-- An occurrence lies on one side of a character that it does not hold. -/
theorem infix_append_cons_iff (hc : c ∉ sub) : sub <:+: a ++ c :: b ↔ sub <:+: a ∨ sub <:+: b := by
  constructor
  · intro h
    induction a with
    | nil =>
      rcases List.infix_cons_iff.1 h with hstart | hlater
      · exact .inl (prefix_of_prefix_append_cons hc hstart).isInfix
      · exact .inr hlater
    | cons x a ih =>
      rcases List.infix_cons_iff.1 h with hstart | hlater
      · exact .inl (prefix_of_prefix_append_cons hc hstart).isInfix
      · exact (ih hlater).imp_left fun hleft => List.infix_cons_iff.2 (.inr hleft)
  · rintro (h | h)
    · exact h.trans (List.prefix_append _ _).isInfix
    · exact h.trans ((List.suffix_cons _ _).trans (List.suffix_append _ _)).isInfix

theorem infix_append_right_iff_of_notMem (hne : sub ≠ []) (hb : ∀ x ∈ b, x ∉ sub) :
    sub <:+: a ++ b ↔ sub <:+: a := by
  induction b generalizing a with
  | nil => rw [List.append_nil]
  | cons x b ih =>
    have hnot : ¬ sub <:+: b := fun h => by
      have hnil := (ih (a := []) fun y hy => hb y (List.mem_cons_of_mem _ hy)).1 h
      exact hne (List.infix_nil.1 hnil)
    rw [infix_append_cons_iff (hb x List.mem_cons_self), or_iff_left hnot]

/-- No occurrence begins in a part that does not hold its first character. -/
theorem infix_append_left_iff_of_notMem (hc : c ∉ a) : c :: sub <:+: a ++ b ↔ c :: sub <:+: b := by
  induction a with
  | nil => rfl
  | cons x a ih =>
    have hx : ¬ c :: sub <+: x :: (a ++ b) := fun hstart =>
      hc ((List.cons_prefix_cons.1 hstart).1 ▸ List.mem_cons_self)
    rw [List.cons_append, List.infix_cons_iff, or_iff_right hx,
      ih fun hmem => hc (List.mem_cons_of_mem _ hmem)]

theorem join_cons_cons (separator part next : Text) (more : List Text) :
    join separator (part :: next :: more) =
      part ++ separator ++ join separator (next :: more) := rfl

theorem join_cons (separator part : Text) (more : List Text) :
    join separator (part :: more) = part ++ more.flatMap (separator ++ ·) := by
  induction more generalizing part with
  | nil => exact (List.append_nil part).symm
  | cons next more ih =>
    rw [join_cons_cons, ih, List.flatMap_cons, List.append_assoc, List.append_assoc]

/-- Parts that stand behind others are joined to them by one more separator. -/
theorem join_append (separator : Text) {first second : List Text} (hfirst : first ≠ [])
    (hsecond : second ≠ []) :
    join separator (first ++ second) =
      join separator first ++ (separator ++ join separator second) := by
  obtain ⟨part, more, rfl⟩ := List.exists_cons_of_ne_nil hfirst
  obtain ⟨next, rest, rfl⟩ := List.exists_cons_of_ne_nil hsecond
  rw [List.cons_append, join_cons, join_cons, join_cons, List.flatMap_append, List.flatMap_cons]
  simp only [List.append_assoc]

theorem join_concat (separator : Text) (hne : parts ≠ []) (part : Text) :
    join separator (parts ++ [part]) = join separator parts ++ (separator ++ part) :=
  join_append separator hne (List.cons_ne_nil part [])

/-- A part among others has the separator on its outer sides. -/
theorem join_append_cons (separator : Text) (before : List Text) (part : Text)
    (after : List Text) :
    join separator (before ++ part :: after) =
      before.flatMap (· ++ separator) ++ (part ++ after.flatMap (separator ++ ·)) := by
  induction before with
  | nil => exact join_cons separator part after
  | cons first before ih =>
    have hnext : ∃ next more, before ++ part :: after = next :: more := by
      cases before <;> exact ⟨_, _, rfl⟩
    obtain ⟨next, more, hmore⟩ := hnext
    rw [List.cons_append, hmore, join_cons_cons, ← hmore, ih, List.flatMap_cons]
    simp only [List.append_assoc]

/-- With fewer parts, there are fewer separators as well. -/
theorem join_sublist (separator : Text) {few many : List Text} (h : few.Sublist many) :
    (join separator few).Sublist (join separator many) := by
  induction h with
  | slnil => exact List.Sublist.refl _
  | @cons few many part hrest ih =>
    cases many with
    | nil =>
      rw [List.sublist_nil.1 hrest]
      exact List.nil_sublist _
    | cons next more => exact ih.trans (List.sublist_append_right _ _)
  | @cons_cons few many part hrest ih =>
    cases many with
    | nil =>
      rw [List.sublist_nil.1 hrest]
    | cons next more =>
      rw [join_cons_cons]
      cases few with
      | nil => exact (List.sublist_append_left _ _).trans (List.sublist_append_left _ _)
      | cons kept rest =>
        rw [join_cons_cons]
        exact (List.Sublist.refl _).append ih

theorem infix_join_of_mem (h : t ∈ parts) : t <:+: join separator parts := by
  induction parts with
  | nil => cases h
  | cons part more ih =>
    cases more with
    | nil =>
      rw [List.mem_singleton.1 h]
      exact List.infix_refl _
    | cons next more =>
      rcases List.mem_cons.1 h with rfl | hmore
      · exact ((List.prefix_append _ _).trans (List.prefix_append _ _)).isInfix
      · exact (ih hmore).trans (List.suffix_append _ _).isInfix

theorem of_mem_join (h : c ∈ join separator parts) : c ∈ separator ∨ ∃ part ∈ parts, c ∈ part := by
  induction parts with
  | nil => cases h
  | cons part more ih =>
    cases more with
    | nil => exact .inr ⟨part, List.mem_cons_self, h⟩
    | cons next more =>
      rw [join_cons_cons, List.mem_append, List.mem_append] at h
      rcases h with (hpart | hseparator) | hmore
      · exact .inr ⟨part, List.mem_cons_self, hpart⟩
      · exact .inl hseparator
      · exact (ih hmore).imp_right fun ⟨found, hfound, hc⟩ =>
          ⟨found, List.mem_cons_of_mem _ hfound, hc⟩

/-! ## First occurrences -/

/-- Whether the marker occurs behind a text for the first time. -/
def EndsFirst (marker a : Text) : Prop := ¬ marker <:+: a ++ marker.dropLast

theorem EndsFirst.of_cons (h : EndsFirst marker (c :: a)) : EndsFirst marker a :=
  fun hoccurs => h (List.infix_cons_iff.2 (.inr hoccurs))

theorem EndsFirst.of_append (h : EndsFirst marker (a ++ b)) : EndsFirst marker b := by
  rw [EndsFirst, List.append_assoc] at h
  exact fun hoccurs => h (hoccurs.trans (List.suffix_append _ _).isInfix)

theorem EndsFirst.not_startsWith (h : EndsFirst marker (c :: a)) (rest : Text) :
    startsWith marker (c :: (a ++ (marker ++ rest))) = false := by
  rw [Bool.eq_false_iff]
  intro hstart
  have hrest : c :: a ++ marker.dropLast <+: c :: (a ++ (marker ++ rest)) := by
    rw [List.cons_append, List.cons_prefix_cons]
    exact ⟨rfl, List.prefix_append_right_inj _ |>.2
      ((List.dropLast_prefix marker).trans (List.prefix_append _ _))⟩
  -- The marker starts early enough to end within the text and all but one of its characters.
  have hwithin : marker <+: c :: a ++ marker.dropLast := by
    apply List.prefix_of_prefix_length_le (startsWith_iff.1 hstart) hrest
    simp only [List.cons_append, List.length_cons, List.length_append, List.length_dropLast]
    omega
  exact h hwithin.isInfix

/-- A marker whose first character does not come back in it occurs first wherever it is new. -/
theorem endsFirst_of_not_isInfix {last : Char} (hc : c ∉ b ++ [last])
    (h : ¬ c :: b ++ [last] <:+: a) :
    EndsFirst (c :: b ++ [last]) a := by
  rw [EndsFirst, List.dropLast_concat]
  intro hoccurs
  induction a with
  | nil =>
    have hlength := hoccurs.length_le
    simp only [List.cons_append, List.length_cons, List.length_append, List.length_nil] at hlength
    omega
  | cons x a ih =>
    rcases List.infix_cons_iff.1 hoccurs with hstart | hlater
    · obtain ⟨rfl, htail⟩ := List.cons_prefix_cons.1 hstart
      have hwithin := prefix_of_prefix_append_cons hc htail
      exact h (List.cons_prefix_cons.2 ⟨rfl, hwithin⟩).isInfix
    · exact ih (fun hbefore => h (List.infix_cons_iff.2 (.inr hbefore))) hlater

end Text

end DocGraph
