import DocGraph.Proofs.Graph.SuggestedBlock
import DocGraph.Proofs.Java.Naming
import DocGraph.Proofs.Javadoc.Ending
import DocGraph.Proofs.Text.Pieces

/-!
# Ignore lists in a comment

An ignore list is written behind its tag, with commas between the names. Behind a comma it may go on
on the next comment line. Cleaning takes off what stands before the first name and behind the last,
and the items are trimmed, but the star of a line within the list is neither blank nor at an end: it
stays in front of the name behind it.
-/

namespace DocGraph

open Text (allBlank trim join)

/-- Words of a source are simple names, and so are all identifiers. -/
theorem isSimpleName_of_isWordPart {name : Text} (hne : name ≠ [])
    (h : ∀ c ∈ name, Java.Lexeme.isWordPart c = true) : IsSimpleName name where
  ne_nil := hne
  plain c hc := by
    have hsigns : ∀ sign ∈ signs, Java.Lexeme.isWordPart sign = false :=
      Text.forall_mem_of_all (by decide)
    refine ⟨isBlank_of_plain (by rw [h c hc, Bool.true_or]), fun hsign => ?_⟩
    exact Bool.false_ne_true ((hsigns c hsign).symm.trans (h c hc))

/-- A name of a list that is not the first, and what stands between it and the comma before it. -/
structure LaterName where
  gap : Text
  name : Text
  blank_or_star : ∀ c ∈ gap, isBlank c = true ∨ c = '*'
  isName : IsSimpleName name

namespace LaterName

variable {item : LaterName} {c : Char}

/-- The text between the comma before a name and the next one. -/
def text (item : LaterName) : Text := item.gap ++ item.name

theorem not_blank_text (item : LaterName) : allBlank item.text = false := by
  have hname := Text.not_allBlank_of_trimmed item.isName.trim_eq item.isName.ne_nil
  rw [text, Text.allBlank_append, hname, Bool.and_false]

/-- The text has the characters of the name, blanks and stars. -/
theorem notMem_text (item : LaterName) (hc : c ∈ signs) (hblank : isBlank c = false)
    (hstar : c ≠ '*') : c ∉ item.text := by
  intro hmem
  rcases List.mem_append.1 hmem with hgap | hname
  · rcases item.blank_or_star c hgap with hc' | hc'
    · exact Bool.false_ne_true (hblank.symm.trans hc')
    · exact hstar hc'
  · exact item.isName.notMem hc hname

/-- The name is what is left of the text, unless there is a star before it. -/
theorem trim_text (h : '*' ∉ item.gap) : trim item.text = item.name := by
  have hgap : allBlank item.gap = true := by
    apply List.all_eq_true.2
    intro c hc
    refine (item.blank_or_star c hc).resolve_right ?_
    rintro rfl
    exact h hc
  rw [text, Text.trim_append_of_allBlank hgap, item.isName.trim_eq]

theorem star_mem_trim_text (h : '*' ∈ item.gap) : '*' ∈ trim item.text :=
  Text.mem_trim (List.mem_append_left _ h) (by decide)

end LaterName

/-- An ignore list as it is laid out over one or more comment lines. -/
def ignoreList (first : Text) (more : List LaterName) : Text :=
  join [','] (first :: more.map LaterName.text)

variable {tagPrefix before opening ending between first : Text} {more : List LaterName} {c : Char}

/-! ## The list as it is read -/

theorem notMem_ignoreList (hfirst : IsSimpleName first) (hc : c ∈ signs)
    (hblank : isBlank c = false) (hother : c ∉ [',', '*']) : c ∉ ignoreList first more := by
  simp only [List.mem_cons, List.not_mem_nil, or_false, not_or] at hother
  intro hmem
  rcases Text.of_mem_join hmem with hcomma | ⟨part, hpart, hmem⟩
  · exact hother.1 (List.mem_singleton.1 hcomma)
  · rcases List.mem_cons.1 hpart with heq | hlater
    · exact hfirst.notMem hc (heq ▸ hmem)
    · obtain ⟨item, -, rfl⟩ := List.mem_map.1 hlater
      exact item.notMem_text hc hblank hother.2 hmem

/-- A list begins and ends with a name. -/
theorem ignoreList_ends (hfirst : IsSimpleName first) (more : List LaterName) :
    (∃ rest, ignoreList first more = first ++ rest) ∧
      ∃ start last, IsSimpleName last ∧ ignoreList first more = start ++ last := by
  refine ⟨⟨_, Text.join_cons [','] first _⟩, ?_⟩
  rcases List.eq_nil_or_concat' more with rfl | ⟨init, item, rfl⟩
  · exact ⟨[], first, hfirst, rfl⟩
  · have hjoin := Text.join_append_cons [','] (first :: init.map LaterName.text) item.text []
    rw [List.flatMap_nil, List.append_nil, LaterName.text, ← List.append_assoc] at hjoin
    rw [ignoreList, List.map_append, List.map_singleton, ← List.cons_append]
    exact ⟨_, item.name, item.isName, hjoin⟩

/-- A list has plain ends. -/
theorem ignoreList_plain (hfirst : IsSimpleName first) (more : List LaterName) :
    trim (ignoreList first more) = ignoreList first more ∧
      (ignoreList first more).head? ≠ some '*' ∧ (ignoreList first more).getLast? ≠ some '*' := by
  obtain ⟨⟨rest, hstart⟩, front, last, hlast, hend⟩ := ignoreList_ends hfirst more
  have hfirst' := Text.not_allBlank_of_trimmed hfirst.trim_eq hfirst.ne_nil
  have hlast' := Text.not_allBlank_of_trimmed hlast.trim_eq hlast.ne_nil
  refine ⟨Text.trimmed_iff.2 ⟨?_, ?_⟩, ?_, ?_⟩
  · rw [hstart, Text.trimStart_append_of_not hfirst', (Text.trimmed_iff.1 hfirst.trim_eq).1]
  · rw [hend, Text.trimEnd_append_of_not hlast', (Text.trimmed_iff.1 hlast.trim_eq).2]
  · rw [hstart, List.head?_append_of_ne_nil _ hfirst.ne_nil]
    exact fun hstar => hfirst.notMem (by decide) (List.mem_of_mem_head? hstar)
  · rw [hend, List.getLast?_append_of_ne_nil _ hlast.ne_nil]
    exact fun hstar => hlast.notMem (by decide) (List.mem_of_getLast? hstar)

/-- A blank list exempts nothing, so it needs no case of its own. -/
theorem ignoredNames_of_allBlank {list : Text} (h : allBlank list = true) :
    ignoredNames list = [] := by
  have hcomma : ∀ c ∈ list, (c == ',') = false := by
    intro c hc
    rw [beq_eq_false_iff_ne]
    rintro rfl
    exact Text.notMem_of_allBlank h (by decide) hc
  rw [ignoredNames, Text.pieces_eq_singleton hcomma, List.map_singleton, Text.trim_of_allBlank h]
  rfl

/-- The names that a list exempts are its trimmed items. -/
theorem ignoredNames_ignoreList (hfirst : IsSimpleName first) (more : List LaterName) :
    ignoredNames (ignoreList first more) =
      (first :: more.map fun item => trim item.text).eraseDups := by
  have hparts : ∀ part ∈ first :: more.map LaterName.text, ∀ c ∈ part, (c == ',') = false := by
    rw [List.forall_mem_cons, List.forall_mem_map]
    refine ⟨fun c hc => ?_, fun item _ c hc => ?_⟩
    · exact beq_eq_false_iff_ne.2 fun hcomma => hfirst.notMem (by decide) (hcomma ▸ hc)
    · exact beq_eq_false_iff_ne.2 fun hcomma =>
        item.notMem_text (by decide) (by decide) (by decide) (hcomma ▸ hc)
  have hitems : (first :: more.map LaterName.text).map trim =
      first :: more.map fun item => trim item.text := by
    rw [List.map_cons, List.map_map, hfirst.trim_eq]
    rfl
  have hnonempty : ∀ item ∈ first :: more.map fun item => trim item.text,
      (!item.isEmpty) = true := by
    rw [List.forall_mem_cons, List.forall_mem_map]
    refine ⟨?_, fun item _ => ?_⟩
    · simpa using hfirst.ne_nil
    · simpa using Text.trim_ne_nil item.not_blank_text
  rw [ignoredNames, ignoreList, Text.pieces_join (List.cons_ne_nil _ _) hparts, hitems,
    List.filter_eq_self.2 hnonempty]

/-- The list exempts exactly its names if and only if no name stands behind a star. -/
theorem mem_ignoredNames_ignoreList_iff (hfirst : IsSimpleName first) (more : List LaterName) :
    (∀ name, name ∈ ignoredNames (ignoreList first more) ↔
        name ∈ first :: more.map LaterName.name) ↔
      ∀ item ∈ more, '*' ∉ item.gap := by
  rw [ignoredNames_ignoreList hfirst more]
  constructor
  · intro h item hitem hstar
    have hread : trim item.text ∈ (first :: more.map fun item => trim item.text).eraseDups :=
      List.mem_eraseDups.2 (List.mem_cons_of_mem _ (List.mem_map_of_mem hitem))
    have hname : IsSimpleName (trim item.text) := by
      rcases List.mem_cons.1 ((h _).1 hread) with heq | hlater
      · rw [heq]
        exact hfirst
      · obtain ⟨other, -, hother⟩ := List.mem_map.1 hlater
        rw [← hother]
        exact other.isName
    exact hname.notMem (by decide) (LaterName.star_mem_trim_text hstar)
  · intro h name
    have hitems : (more.map fun item => trim item.text) = more.map LaterName.name :=
      List.map_congr_left fun item hitem => LaterName.trim_text (h item hitem)
    rw [List.mem_eraseDups, hitems]

/-! ## The tag of a list -/

/-- A list is the content of its tag, however it is laid out and whatever follows it. It exempts its
names if and only if none of them stands behind the star of a further comment line. -/
theorem readTags_ignoreList {tagPrefix : Text} (hsolid : ∀ c ∈ tagPrefix, isBlank c = false)
    (hat : '@' ∉ tagPrefix) {before : Text} (hbefore : ¬ tagMarker tagPrefix <:+: before)
    {opening : Text} (hopening : IsMargin opening) (hgap : opening.head?.any isBlank = true)
    {first : Text} (hfirst : IsSimpleName first) (more : List LaterName)
    {ending : Text} (hending : allBlank ending = true ∨
      ∃ rest, ending = Tag.lineStart ++ (tagMarker tagPrefix ++ rest)) :
    readTags tagPrefix (before ++ (tagMarker tagPrefix ++
        (TagType.graphIgnore.name ++ (opening ++ ignoreList first more) ++ ending))) =
      ⟨.graphIgnore, ignoreList first more, none⟩ :: readTags tagPrefix ending ∧
    ignoredNames (ignoreList first more) =
      (first :: more.map fun item => trim item.text).eraseDups ∧
    ((∀ name, name ∈ ignoredNames (ignoreList first more) ↔
        name ∈ first :: more.map LaterName.name) ↔
      ∀ item ∈ more, '*' ∉ item.gap) := by
  refine ⟨?_, ignoredNames_ignoreList hfirst more, mem_ignoredNames_ignoreList_iff hfirst more⟩
  obtain ⟨between, hfollows⟩ := Tag.Follows.exists_of_ending hending
  obtain ⟨htrim, hhead, hlast⟩ := ignoreList_plain hfirst more
  have hfed : allBlank (opening ++ ignoreList first more) = false := by
    obtain ⟨⟨rest, hstart⟩, -⟩ := ignoreList_ends hfirst more
    rw [Text.allBlank_append, hstart, Text.allBlank_append,
      Text.not_allBlank_of_trimmed hfirst.trim_eq hfirst.ne_nil, Bool.false_and, Bool.and_false]
  have hunmarked : ¬ tagMarker tagPrefix <:+: ignoreList first more :=
    not_tagMarker_isInfix (notMem_ignoreList hfirst (by decide) (by decide) (by decide))
  have hdateless : Tag.Dateless (ignoreList first more) :=
    Tag.dateless_of_notMem (notMem_ignoreList hfirst (by decide) (by decide) (by decide))
  rw [Tag.readTags_opened hsolid hat hbefore hopening hgap hfed hunmarked hfollows, Tag.ofRaw,
    List.append_assoc, Tag.clean_framed htrim hhead hlast hopening hfollows.isMargin,
    Tag.takeDate?_eq_none_iff.2 hdateless]

/-- Two names on the line of the tag are both exempted. -/
theorem readTags_ignoreList_of_two :
    (∀ c ∈ defaultTagPrefix, isBlank c = false) ∧ '@' ∉ defaultTagPrefix ∧
      ¬ tagMarker defaultTagPrefix <:+: Tag.lineStart ∧ IsMargin [' '] ∧
      [' '].head?.any isBlank = true ∧ IsSimpleName ['B'] ∧ allBlank ['\n', ' '] = true ∧
      readTags defaultTagPrefix "\n * @aicontext-graph-ignore B, C\n ".toList =
        [⟨.graphIgnore, "B, C".toList, none⟩] ∧
      ∀ name, name ∈ ignoredNames "B, C".toList ↔ name ∈ [['B'], ['C']] := by
  have hbefore : ¬ tagMarker defaultTagPrefix <:+: Tag.lineStart := by decide
  have hopening : IsMargin [' '] := .blank (by decide)
  have hfirst : IsSimpleName ['B'] :=
    isSimpleName_of_isWordPart (by decide) (List.all_eq_true.1 (by decide))
  have hlater : IsSimpleName ['C'] :=
    isSimpleName_of_isWordPart (by decide) (List.all_eq_true.1 (by decide))
  have hspace : ∀ c ∈ [' '], isBlank c = true ∨ c = '*' :=
    fun c hc => .inl (Text.isBlank_of_mem (by decide : allBlank [' '] = true) hc)
  obtain ⟨htags, -, hnames⟩ := readTags_ignoreList not_blank_defaultTagPrefix (by decide) hbefore
    hopening (by decide) hfirst [⟨[' '], ['C'], hspace, hlater⟩]
    (.inl (by decide : allBlank ['\n', ' '] = true))
  exact ⟨not_blank_defaultTagPrefix, by decide, hbefore, hopening, by decide, hfirst, by decide,
    htags, hnames.2 (by simp)⟩

/-- A name on a further comment line keeps the star of that line. -/
theorem readTags_ignoreList_keeps_star :
    let comment := "\n * @aicontext-graph-ignore B,\n * C\n ".toList
    readTags defaultTagPrefix comment = [⟨.graphIgnore, "B,\n * C".toList, none⟩] ∧
      ignoredNames "B,\n * C".toList = [['B'], "* C".toList] ∧
      ['C'] ∉ ignoredNames "B,\n * C".toList := by
  intro comment
  have htags : readTags defaultTagPrefix comment =
      [⟨.graphIgnore, "B,\n * C".toList, none⟩] := by
    decide +kernel
  have hnames : ignoredNames "B,\n * C".toList = [['B'], "* C".toList] := by decide +kernel
  exact ⟨htags, hnames, by rw [hnames]; decide⟩

end DocGraph
