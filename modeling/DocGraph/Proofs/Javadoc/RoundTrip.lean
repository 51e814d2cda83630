import DocGraph.Proofs.Javadoc.Ending

/-!
# Writing tags and reading them back

A tag is written on a comment line of its own: the marker, the kind, the date in brackets where it
has one, and the content. Its content is followed by the star of the line of the next tag, or by
what is left of the comment, and cleaning takes off exactly that.

So every list of tags is read back from the comment that holds them, if their contents have plain
ends and hold neither a marker nor a date of their own.
-/

namespace DocGraph

namespace Tag

open Text (allBlank trim EndsFirst)

variable {tagPrefix ending between after : Text} {tag : Tag}

/-- A date as it stands before content. -/
def leadingDate : Option Text → Text
  | some date => bracketed date ++ [' ']
  | none => []

/-- The content of a tag behind its date. -/
def datedContent (tag : Tag) : Text := leadingDate tag.timestamp ++ tag.content

/-- A tag as it stands behind its marker. -/
def writtenStretch (tag : Tag) : Text := tag.type.name ++ ' ' :: tag.datedContent

/-- A tag on a comment line of its own. -/
def written (tagPrefix : Text) (tag : Tag) : Text :=
  lineStart ++ (tagMarker tagPrefix ++ tag.writtenStretch)

/-- Tags that can be told from what stands around them in a comment. -/
structure Writable (tagPrefix : Text) (tag : Tag) : Prop where
  dated : ∀ date, tag.timestamp = some date → IsDate date
  notBlank : allBlank tag.content = false
  trimmed : trim tag.content = tag.content
  head : tag.content.head? ≠ some '*'
  last : tag.content.getLast? ≠ some '*'
  unmarked : ¬ tagMarker tagPrefix <:+: tag.content
  dateless : Dateless tag.content

/-! ## One tag -/

theorem Writable.content_ne_nil (h : tag.Writable tagPrefix) : tag.content ≠ [] := by
  intro hnil
  have hblank := h.notBlank
  rw [hnil] at hblank
  cases hblank

/-- A date in front leaves the ends of content plain. -/
theorem Writable.datedContent_plain (h : tag.Writable tagPrefix) :
    trim tag.datedContent = tag.datedContent ∧
      tag.datedContent.head? ≠ some '*' ∧ tag.datedContent.getLast? ≠ some '*' := by
  rw [datedContent]
  cases tag.timestamp with
  | none => exact ⟨h.trimmed, h.head, h.last⟩
  | some date =>
    have hcontent := (Text.trimmed_iff.1 h.trimmed).2
    refine ⟨?_, by simp [leadingDate, bracketed], ?_⟩
    · refine Text.trimmed_iff.2 ⟨Text.trimStart_cons_of_not (by decide), ?_⟩
      rw [Text.trimEnd_append_of_not h.notBlank, hcontent]
    · rw [List.getLast?_append_of_ne_nil _ h.content_ne_nil]
      exact h.last

theorem takeDate?_datedContent (h : tag.Writable tagPrefix) :
    takeDate? tag.datedContent = tag.timestamp.map (·, tag.content) := by
  rw [datedContent]
  cases hdate : tag.timestamp with
  | none => exact takeDate?_eq_none_iff.2 h.dateless
  | some date =>
    have hless : Dateless [] := fun other _ hoccurs =>
      List.cons_ne_nil _ _ (List.infix_nil.1 hoccurs)
    have htake := takeDate?_append (h.dated date hdate) hless (' ' :: tag.content)
    rw [List.nil_append, List.nil_append, Text.trimStart_cons_of_blank (by decide),
      (Text.trimmed_iff.1 h.trimmed).1] at htake
    rw [leadingDate, List.append_assoc, List.singleton_append, htake]
    rfl

/-- Content makes its tag again, whether blanks or the star of the next line follow it. -/
theorem ofRaw_datedContent (h : tag.Writable tagPrefix) (hafter : IsMargin after) :
    ofRaw tag.type ([' '] ++ (tag.datedContent ++ after)) = tag := by
  obtain ⟨htrim, hhead, hlast⟩ := h.datedContent_plain
  have hspace : IsMargin [' '] := .blank (by decide)
  rw [ofRaw, clean_framed htrim hhead hlast hspace hafter, takeDate?_datedContent h]
  cases hdate : tag.timestamp with
  | none =>
    rw [datedContent, hdate]
    obtain ⟨type, content, timestamp⟩ := tag
    cases hdate
    rfl
  | some date =>
    obtain ⟨type, content, timestamp⟩ := tag
    cases hdate
    rfl

theorem announces_writtenStretch (tag : Tag) :
    Announces tag.writtenStretch tag.type (' ' :: tag.datedContent) :=
  ⟨rfl, ' ', tag.datedContent, rfl, by decide⟩

/-- No marker is hidden in a written tag. -/
theorem Writable.unmarked_writtenStretch (h : tag.Writable tagPrefix)
    (hsolid : ∀ c ∈ tagPrefix, isBlank c = false) :
    ¬ tagMarker tagPrefix <:+: tag.writtenStretch := by
  have hspace : ' ' ∉ tagMarker tagPrefix := notMem_tagMarker_of_isBlank hsolid (by decide)
  have hname : ¬ tagMarker tagPrefix <:+: tag.type.name :=
    not_tagMarker_isInfix fun hmem => (TagType.not_blank_of_mem_name hmem).2 rfl
  have hdated : ¬ tagMarker tagPrefix <:+: tag.datedContent := by
    rw [datedContent]
    cases hdate : tag.timestamp with
    | none => exact h.unmarked
    | some date =>
      have hbrackets : ¬ tagMarker tagPrefix <:+: bracketed date :=
        not_tagMarker_isInfix ((h.dated date hdate).notMem_bracketed (by decide) (by decide))
      rw [leadingDate, List.append_assoc, List.singleton_append,
        Text.infix_append_cons_iff hspace, not_or]
      exact ⟨hbrackets, h.unmarked⟩
  rw [writtenStretch, Text.infix_append_cons_iff hspace, not_or]
  exact ⟨hname, hdated⟩

/-! ## All tags -/

theorem written_append (tagPrefix : Text) (tag : Tag) (rest : Text) :
    written tagPrefix tag ++ rest =
      lineStart ++ (tagMarker tagPrefix ++ (tag.writtenStretch ++ rest)) := by
  simp only [written, List.append_assoc]

theorem Writable.not_blank_datedContent (h : tag.Writable tagPrefix) :
    allBlank (' ' :: tag.datedContent) = false := by
  rw [datedContent, Text.allBlank_cons, Text.allBlank_append, h.notBlank, Bool.and_false,
    Bool.and_false]

/-- A tag is read before whatever may follow it. -/
theorem tagsFrom_written_append (hsolid : ∀ c ∈ tagPrefix, isBlank c = false)
    (hat : '@' ∉ tagPrefix) (h : tag.Writable tagPrefix)
    (hfollows : Follows tagPrefix ending between) :
    tagsFrom (tagMarker tagPrefix) (written tagPrefix tag ++ ending) =
      tag :: tagsFrom (tagMarker tagPrefix) ending := by
  have hstart : EndsFirst (tagMarker tagPrefix) lineStart :=
    endsFirst_tagMarker hat (not_tagMarker_isInfix (by decide))
  have htag : ofRaw tag.type (' ' :: tag.datedContent ++ between) = tag :=
    ofRaw_datedContent h hfollows.isMargin
  rw [← readTags_eq, ← readTags_eq, written_append, readTags_followed hsolid hat hstart
    (announces_writtenStretch tag) h.not_blank_datedContent (h.unmarked_writtenStretch hsolid)
    hfollows, htag]

/-- The last tag is read before the blanks at the end. -/
theorem tagsFrom_written_blank (hsolid : ∀ c ∈ tagPrefix, isBlank c = false)
    (hat : '@' ∉ tagPrefix) (h : tag.Writable tagPrefix) (hafter : allBlank after = true) :
    tagsFrom (tagMarker tagPrefix) (written tagPrefix tag ++ after) = [tag] := by
  rw [tagsFrom_written_append hsolid hat h (.blanks hafter), ← readTags_eq,
    readTags_of_allBlank hafter]

/-- Tags that are written one below the other are read back. -/
theorem readTags_written {tagPrefix : Text} (hsolid : ∀ c ∈ tagPrefix, isBlank c = false)
    (hat : '@' ∉ tagPrefix) {tags : List Tag} (h : ∀ tag ∈ tags, tag.Writable tagPrefix)
    {tail : Text} (htail : allBlank tail = true) :
    readTags tagPrefix (tags.flatMap (written tagPrefix) ++ tail) = tags := by
  rw [readTags_eq]
  induction tags with
  | nil =>
    have hat' : '@' ∉ tail := Text.notMem_of_allBlank htail (by decide)
    exact tagsFrom_of_not_isInfix (not_tagMarker_isInfix hat')
  | cons tag more ih =>
    have hfirst := h tag List.mem_cons_self
    have hmore := ih fun other hother => h other (List.mem_cons_of_mem _ hother)
    cases more with
    | nil =>
      rw [List.flatMap_cons, List.flatMap_nil, List.append_nil]
      exact tagsFrom_written_blank hsolid hat hfirst htail
    | cons next later =>
      rw [List.flatMap_cons, List.append_assoc, written_append] at hmore
      rw [List.flatMap_cons, List.flatMap_cons, List.append_assoc, List.append_assoc,
        written_append tagPrefix next, tagsFrom_written_append hsolid hat hfirst (.tag _), hmore]

/-- A dated rule of two lines and a graph come back from one comment. -/
theorem readTags_written_of_two :
    let rule : Tag := ⟨.rule, "keep this\n * as it is".toList, some "2024-01-31".toList⟩
    let graph : Tag := ⟨.graph, "Foo".toList, none⟩
    let comment := ("\n * @aicontext-rule [2024-01-31] keep this\n * as it is" ++
      "\n * @aicontext-graph Foo\n ").toList
    (∀ c ∈ defaultTagPrefix, isBlank c = false) ∧ '@' ∉ defaultTagPrefix ∧
      (∀ tag ∈ [rule, graph], tag.Writable defaultTagPrefix) ∧
      readTags defaultTagPrefix comment = [rule, graph] := by
  intro rule graph comment
  have hrule : rule.Writable defaultTagPrefix :=
    { dated := by
        rintro date ⟨⟩
        exact ⟨"2024".toList, "01".toList, "31".toList, rfl, rfl, rfl, rfl,
          List.all_eq_true.1 (by decide)⟩
      notBlank := by decide
      trimmed := by decide
      head := by decide
      last := by decide
      unmarked := by decide +kernel
      dateless := takeDate?_eq_none_iff.1 (by decide +kernel) }
  have hgraph : graph.Writable defaultTagPrefix :=
    { dated := fun date hdate => by cases hdate
      notBlank := by decide
      trimmed := by decide
      head := by decide
      last := by decide
      unmarked := by decide +kernel
      dateless := takeDate?_eq_none_iff.1 (by decide +kernel) }
  have hall : ∀ tag ∈ [rule, graph], tag.Writable defaultTagPrefix := by
    simpa using ⟨hrule, hgraph⟩
  have hwritten : [rule, graph].flatMap (written defaultTagPrefix) ++ "\n ".toList = comment := by
    decide +kernel
  refine ⟨not_blank_defaultTagPrefix, by decide, hall, ?_⟩
  rw [← hwritten]
  exact readTags_written not_blank_defaultTagPrefix (by decide) hall (by decide)

end Tag

end DocGraph
