import DocGraph.Proofs.Javadoc.Stretch

/-!
# What stands around content

Behind the kind of a tag its content begins on the same line or on a further one. Behind the content
there are blanks if the tag is the last of its comment, and else the line of the next tag. All this
belongs to the content up to the next marker, and cleaning takes it off.
-/

namespace DocGraph

namespace Tag

open Text (allBlank EndsFirst)

variable {tagPrefix before opening ending between stretch body t : Text} {type : TagType}

/-- The start of a comment line, with the line feed before it. -/
def lineStart : Text := "\n * "

theorem isMargin_lineStart : IsMargin lineStart :=
  @IsMargin.star ['\n', ' '] [' '] (by decide) (by decide)

/-- The pass goes over the start of a comment line. -/
theorem tagsFrom_lineStart (tagPrefix t : Text) :
    tagsFrom (tagMarker tagPrefix) (lineStart ++ t) = tagsFrom (tagMarker tagPrefix) t :=
  tagsFrom_append_of_notMem (by decide) t

theorem readTags_of_allBlank (h : allBlank t = true) : readTags tagPrefix t = [] :=
  tagsFrom_of_not_isInfix (not_tagMarker_isInfix (Text.notMem_of_allBlank h (by decide)))

/-! ## Behind content -/

/-- What may follow a tag, and what of it stands before the next marker. -/
inductive Follows (tagPrefix : Text) : Text → Text → Prop
  | blanks {ending : Text} : allBlank ending = true → Follows tagPrefix ending ending
  | tag (rest : Text) :
    Follows tagPrefix (lineStart ++ (tagMarker tagPrefix ++ rest)) lineStart

namespace Follows

theorem exists_of_ending (h : allBlank ending = true ∨
    ∃ rest, ending = lineStart ++ (tagMarker tagPrefix ++ rest)) :
    ∃ between, Follows tagPrefix ending between := by
  rcases h with hblanks | ⟨rest, rfl⟩
  · exact ⟨ending, .blanks hblanks⟩
  · exact ⟨lineStart, .tag rest⟩

theorem blank_or_eq (h : Follows tagPrefix ending between) :
    allBlank between = true ∨ between = lineStart := by
  cases h with
  | blanks hblanks => exact .inl hblanks
  | tag rest => exact .inr rfl

/-- What follows content is taken off by cleaning. -/
theorem isMargin (h : Follows tagPrefix ending between) : IsMargin between := by
  rcases h.blank_or_eq with hblanks | rfl
  · exact .blank hblanks
  · exact isMargin_lineStart

/-- No marker comes together where a text meets what follows it. -/
theorem unmarked (h : Follows tagPrefix ending between)
    (hsolid : ∀ c ∈ tagPrefix, isBlank c = false) (ht : ¬ tagMarker tagPrefix <:+: t) :
    ¬ tagMarker tagPrefix <:+: t ++ between := by
  rcases h.blank_or_eq with hblanks | rfl
  · rwa [Text.infix_append_right_iff_of_notMem (tagMarker_ne_nil _) fun c hc =>
      notMem_tagMarker_of_isBlank hsolid (Text.isBlank_of_mem hblanks hc)]
  · have hstart : lineStart = '\n' :: [' ', '*', ' '] := rfl
    rw [hstart, Text.infix_append_cons_iff (notMem_tagMarker_of_isBlank hsolid (by decide)), not_or]
    exact ⟨ht, not_tagMarker_isInfix (by decide)⟩

end Follows

/-! ## Before content -/

theorem announces_opening (hgap : opening.head?.any isBlank = true) (type : TagType) (t : Text) :
    Announces (type.name ++ (opening ++ t)) type (opening ++ t) := by
  cases opening with
  | nil => cases hgap
  | cons c rest => exact ⟨rfl, c, rest ++ t, rfl, hgap⟩

/-- No marker comes together between a kind and content. -/
theorem unmarked_opening (hsolid : ∀ c ∈ tagPrefix, isBlank c = false) (hopening : IsMargin opening)
    (hgap : opening.head?.any isBlank = true) (ht : ¬ tagMarker tagPrefix <:+: t) :
    ¬ tagMarker tagPrefix <:+: type.name ++ (opening ++ t) := by
  have hname : ¬ tagMarker tagPrefix <:+: type.name :=
    not_tagMarker_isInfix fun hmem => (TagType.not_blank_of_mem_name hmem).2 rfl
  cases opening with
  | nil => cases hgap
  | cons c rest =>
    have hrest : '@' ∉ rest := fun hmem =>
      hopening.notMem (by decide) (by decide) (List.mem_cons_of_mem c hmem)
    rw [List.cons_append, Text.infix_append_cons_iff (notMem_tagMarker_of_isBlank hsolid hgap),
      tagMarker_eq, Text.infix_append_left_iff_of_notMem hrest, ← tagMarker_eq, not_or]
    exact ⟨hname, ht⟩

/-! ## The tag -/

/-- A tag is read with what follows it up to the next marker, and the pass goes on from there. -/
theorem readTags_followed (hsolid : ∀ c ∈ tagPrefix, isBlank c = false) (hat : '@' ∉ tagPrefix)
    (hbefore : EndsFirst (tagMarker tagPrefix) before) (h : Announces stretch type body)
    (hbody : allBlank body = false) (hunmarked : ¬ tagMarker tagPrefix <:+: stretch)
    (hfollows : Follows tagPrefix ending between) :
    readTags tagPrefix (before ++ (tagMarker tagPrefix ++ (stretch ++ ending))) =
      ofRaw type (body ++ between) :: readTags tagPrefix ending := by
  have hnot := hfollows.unmarked hsolid hunmarked
  have hfed : allBlank (body ++ between) = false := by
    rw [Text.allBlank_append, hbody, Bool.false_and]
  rw [readTags_eq, tagsFrom_append_marker hbefore]
  cases hfollows with
  | blanks hblanks =>
    rw [tagsFrom_stretch_end (h.append ending) (.inl hfed) hnot, readTags_of_allBlank hblanks]
  | tag rest =>
    rw [readTags_eq, tagsFrom_lineStart, ← List.append_assoc stretch,
      tagsFrom_stretch_marker (h.append lineStart) hfed (endsFirst_tagMarker hat hnot)]

/-- A tag is read with the opening of its content. -/
theorem readTags_opened (hsolid : ∀ c ∈ tagPrefix, isBlank c = false) (hat : '@' ∉ tagPrefix)
    (hbefore : ¬ tagMarker tagPrefix <:+: before) (hopening : IsMargin opening)
    (hgap : opening.head?.any isBlank = true) (hfed : allBlank (opening ++ t) = false)
    (hunmarked : ¬ tagMarker tagPrefix <:+: t) (hfollows : Follows tagPrefix ending between) :
    readTags tagPrefix
        (before ++ (tagMarker tagPrefix ++ (type.name ++ (opening ++ t) ++ ending))) =
      ofRaw type (opening ++ t ++ between) :: readTags tagPrefix ending :=
  readTags_followed hsolid hat (endsFirst_tagMarker hat hbefore) (announces_opening hgap type t)
    hfed (unmarked_opening hsolid hopening hgap hunmarked) hfollows

end Tag

end DocGraph
