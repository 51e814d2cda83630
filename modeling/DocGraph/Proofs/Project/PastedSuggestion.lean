import DocGraph.Project.Report
import DocGraph.Project.Suggestion
import DocGraph.Proofs.Graph.SuggestedBlock
import DocGraph.Proofs.Java.Outline
import DocGraph.Proofs.Javadoc.GraphComment

/-!
# Suggestions that are pasted into comments

What is suggested for a declaration can be put into its comment as it is: the lines of the text,
with or without the remarks of the file, each on a comment line below a graph tag. The comment then
has this one tag, and its graph documents exactly the types that the declaration uses. So checking
the graph finds nothing to say, whatever else is to be ignored.
-/

namespace DocGraph

open Text (allBlank trim EndsFirst)
open Java (usedTypes)

variable {name : Text} {used header : List Text}

/-! ## The lines of a suggestion -/

theorem lines_suggestion (hname : IsSimpleName name) (h : ∀ name ∈ used, IsSimpleName name)
    (hheader : header = [] ∨ header = headerLines) :
    Text.lines ((header ++ suggestedLines name used).flatMap (· ++ ['\n'])) =
      header ++ suggestedLines name used :=
  Text.lines_flatMap_newline fun _ hline c hc =>
    (isInline_iff.1 (isInline_of_mem_suggestion hname h hheader hline) c hc).1

theorem dateless_suggestedUsesLine (h : ∀ name ∈ used, IsSimpleName name) :
    Tag.Dateless (suggestedUsesLine used) := by
  cases used with
  | nil => exact Tag.takeDate?_eq_none_iff.1 (by decide +kernel)
  | cons name more =>
    -- The only opening bracket is that of the relation, and no date begins with a letter.
    have hbefore : Tag.Dateless "  ├─[".toList := Tag.takeDate?_eq_none_iff.1 (by decide +kernel)
    have hafter : Tag.Dateless
        ("ses]→ ".toList ++ Text.join ", ".toList (Text.sort (name :: more))) := by
      apply Tag.dateless_of_notMem
      intro hmem
      rcases List.mem_append.1 hmem with hrelation | hnames
      · exact absurd hrelation (by decide)
      · rcases Text.of_mem_join hnames with hseparator | ⟨other, hother, hmem⟩
        · exact absurd hseparator (by decide)
        · exact (h other (Text.mem_sort.1 hother)).notMem (by decide) hmem
    exact hbefore.append_cons (c := 'u') hafter (by decide) (by decide)

theorem commentable_suggestion (hname : IsSimpleName name) (h : ∀ name ∈ used, IsSimpleName name)
    (hheader : header = [] ∨ header = headerLines) :
    Tag.Commentable (header ++ suggestedLines name used) where
  unbroken _ hline c hc :=
    (isInline_iff.1 (isInline_of_mem_suggestion hname h hheader hline) c hc).1
  starless := by
    intro bare hbare
    obtain ⟨line, hline, rfl⟩ := List.mem_map.1 hbare
    have hplain := isInline_iff.1 (isInline_of_mem_suggestion hname h hheader hline)
    have hstar : '*' ∉ trim line := fun hmem =>
      (hplain '*' ((Text.trim_isInfix line).subset hmem)).2.1 rfl
    exact ⟨fun hhead => hstar (List.mem_of_mem_head? hhead),
      fun hlast => hstar (List.mem_of_getLast? hlast)⟩
  dateless line hline := by
    have hfixed : ∀ line ∈ headerLines ++ [suggestionHint], Tag.takeDate? line = none := by
      decide +kernel
    rcases List.mem_append.1 hline with hremark | hline
    · rcases hheader with rfl | rfl
      · cases hremark
      · exact Tag.takeDate?_eq_none_iff.1 (hfixed line (List.mem_append_left _ hremark))
    · simp only [suggestedLines, List.mem_cons, List.not_mem_nil, or_false] at hline
      rcases hline with rfl | rfl | rfl
      · exact Tag.dateless_of_notMem (hname.notMem (by decide))
      · exact dateless_suggestedUsesLine h
      · exact Tag.takeDate?_eq_none_iff.1 (hfixed _ (by simp))

theorem not_infix_suggestion (hname : IsSimpleName name) (h : ∀ name ∈ used, IsSimpleName name)
    (hheader : header = [] ∨ header = headerLines) {blanks : Text}
    (hblanks : allBlank blanks = true) (tagPrefix : Text) (type : TagType) :
    ¬ tagMarker tagPrefix <:+:
      type.name ++ (Tag.commentLines (header ++ suggestedLines name used) ++ blanks) := by
  apply not_tagMarker_isInfix
  intro hmem
  rcases List.mem_append.1 hmem with htype | hmem
  · exact (TagType.not_blank_of_mem_name htype).2 rfl
  rcases List.mem_append.1 hmem with hlines | hblank
  · obtain ⟨line, hline, hmem⟩ := List.mem_flatMap.1 hlines
    rcases List.mem_append.1 hmem with hstart | hmem
    · exact absurd hstart (by decide)
    · have hplain := isInline_iff.1 (isInline_of_mem_suggestion hname h hheader hline)
      exact (hplain '@' hmem).2.2 rfl
  · exact Text.notMem_of_allBlank hblanks (by decide) hblank

/-! ## Checking the pasted graph -/

/-- Where the documented types are the used ones, there is nothing to report. -/
theorem ofCheck_of_documented_eq (tagPrefix : Text) (entry : Entry) (names ignored : List Text) :
    Report.ofCheck tagPrefix entry (.compared ⟨names, names, ignored⟩) = ⟨[], [], 1, 0⟩ := by
  have hnone : ∀ other : Text → Bool,
      names.filter (fun name => !names.elem name && other name) = [] := by
    intro other
    rw [List.filter_eq_nil_iff]
    intro name hname
    simp [hname]
  simp only [Report.ofCheck, Comparison.undocumented, Comparison.unused, hnone, List.map_nil]

theorem compare_eq (entry : Entry) (ignoreList : Text) (project : List Text) (name : Text)
    (declaration : Java.Tree) :
    compare entry ignoreList project name declaration =
      ⟨usesEvent declaration (usedTypes declaration project) ::
          (targetlessLines entry.content).map .edgeWithoutTargets,
        .ok ⟨Text.sort (usedTypes declaration project), documentedUses entry.content name,
          ignoredNames ignoreList⟩⟩ := by
  simp [compare, Run.andThen, Run.logs, Run.done]

/-- A suggestion that is pasted into the comment of its declaration is the only tag there. Its graph
documents the used types in order, and checking it logs and reports nothing but these. -/
theorem compare_pasted_suggestion (declaration : Java.Tree) (project : List Text)
    (hname : IsSimpleName declaration.declaredName)
    (hproject : ∀ name ∈ project, IsSimpleName name) {text : Text}
    (htext : text = suggestedGraph declaration.declaredName (usedTypes declaration project) ∨
      text = (Suggestion.ofDeclaration project declaration).text)
    (tagPrefix : Text) {before : Text} (hbefore : EndsFirst (tagMarker tagPrefix) before)
    {blanks : Text} (hblanks : allBlank blanks = true) :
    ∃ content, readTags tagPrefix
          (Tag.linesComment tagPrefix before .graph (Text.lines text) blanks) =
        [⟨.graph, content, none⟩] ∧
      documentedUses content declaration.declaredName =
        Text.sort (usedTypes declaration project) ∧
      ∀ (entry : Entry) (ignoreList : Text), entry.content = content →
        ∃ comparison,
          compare entry ignoreList project declaration.declaredName declaration =
            ⟨[usesEvent declaration (usedTypes declaration project)], .ok comparison⟩ ∧
          Report.ofCheck tagPrefix entry (.compared comparison) = ⟨[], [], 1, 0⟩ := by
  have hused : ∀ name ∈ usedTypes declaration project, IsSimpleName name := by
    intro name hmem
    rw [usedTypes, List.mem_eraseDups, List.mem_filter, Bool.and_eq_true] at hmem
    exact hproject name (List.mem_of_elem_eq_true hmem.2.2)
  have hnodup : (usedTypes declaration project).Nodup := nodup_eraseDups _
  obtain ⟨header, hheader, hlines⟩ : ∃ header, (header = [] ∨ header = headerLines) ∧
      Text.lines text =
        header ++ suggestedLines declaration.declaredName (usedTypes declaration project) := by
    rcases htext with rfl | rfl
    · exact ⟨[], .inl rfl, lines_suggestion hname hused (.inl rfl)⟩
    · have hall := lines_suggestion hname hused (.inr rfl)
      rw [List.flatMap_append, ← suggestionHeader_eq, ← suggestedGraph_eq] at hall
      exact ⟨headerLines, .inr rfl, hall⟩
  rw [hlines]
  have hcommentable := commentable_suggestion hname hused hheader
  have hne :
      header ++ suggestedLines declaration.declaredName (usedTypes declaration project) ≠ [] :=
    List.append_ne_nil_of_right_ne_nil _ (List.cons_ne_nil _ _)
  have htags := Tag.readTags_linesComment_blank hne hcommentable hbefore hblanks
    (not_infix_suggestion hname hused hheader hblanks tagPrefix .graph)
  have hblocks := Tag.blocks_clean_commentLines hcommentable
  have huses := documentedUses_suggested hname hused hnodup hheader hblocks
  have htargets := targetlessLines_suggested hname hused hheader hblocks
  refine ⟨_, htags, huses, fun entry ignoreList hcontent => ?_⟩
  rw [compare_eq, hcontent, huses, htargets]
  exact ⟨_, rfl, ofCheck_of_documented_eq tagPrefix entry _ _⟩

/-- What is written into the file for a class with two fields can be pasted as a whole. -/
theorem compare_pasted_suggestion_of_two_fields :
    let project : List Text := [['A'], ['B'], ['C']]
    ∃ declaration, (Java.readSource "class A\x7bC c; B b;\x7d".toList).root.findType? ['A'] =
        some declaration ∧
      IsSimpleName declaration.declaredName ∧ (∀ name ∈ project, IsSimpleName name) ∧
      EndsFirst (tagMarker defaultTagPrefix) Tag.lineStart ∧ allBlank ['\n', ' '] = true ∧
      ∃ content, readTags defaultTagPrefix (Tag.linesComment defaultTagPrefix Tag.lineStart .graph
          (Text.lines (Suggestion.ofDeclaration project declaration).text) ['\n', ' ']) =
            [⟨.graph, content, none⟩] ∧
        documentedUses content ['A'] = [['B'], ['C']] ∧
        ∃ comparison, (compare ⟨['A'], [], 1, .architectural, "graph".toList, content, none⟩
            ['X'] project ['A'] declaration).outcome = .ok comparison ∧
          Report.ofCheck defaultTagPrefix
            ⟨['A'], [], 1, .architectural, "graph".toList, content, none⟩ (.compared comparison) =
              ⟨[], [], 1, 0⟩ := by
  intro project
  have hread : ((Java.readSource "class A\x7bC c; B b;\x7d".toList).root.findType? ['A']).map
      (fun declaration => (declaration.declaredName, usedTypes declaration project)) =
        some (['A'], [['C'], ['B']]) := by
    decide +kernel
  obtain ⟨declaration, hdeclaration, hfields⟩ := Option.map_eq_some_iff.1 hread
  obtain ⟨hdeclared, hused⟩ := Prod.mk.inj hfields
  have hproject : ∀ name ∈ project, IsSimpleName name := by decide
  have hname : IsSimpleName declaration.declaredName := hdeclared ▸ hproject ['A'] (by decide)
  have hbefore : EndsFirst (tagMarker defaultTagPrefix) Tag.lineStart :=
    Tag.endsFirst_tagMarker (by decide) (by decide)
  have hblanks : allBlank ['\n', ' '] = true := by decide
  have hsorted : Text.sort [['C'], ['B']] = [['B'], ['C']] := by
    simp [Text.sort, List.mergeSort, Text.le]
  obtain ⟨content, htags, huses, hcompare⟩ := compare_pasted_suggestion declaration project hname
    hproject (.inr rfl) defaultTagPrefix hbefore hblanks
  rw [hdeclared, hused, hsorted] at huses
  obtain ⟨comparison, hrun, hreport⟩ :=
    hcompare ⟨['A'], [], 1, .architectural, "graph".toList, content, none⟩ ['X'] rfl
  rw [hdeclared] at hrun
  exact ⟨declaration, hdeclaration, hname, hproject, hbefore, hblanks, content, htags, huses,
    comparison, by rw [hrun], hreport⟩

end DocGraph
