import DocGraph.Graph.Suggested
import DocGraph.Proofs.Graph.EdgeLine
import DocGraph.Proofs.Graph.Padding
import DocGraph.Proofs.Text.Order

/-!
# Reading a suggested block

A suggested block names a class and has one edge line, with the used types in order. Names that hold
nothing with a meaning in a graph are read from it as they were written; where there are none, the
line in place of the edge is a remark.

The remarks that may stand above a block are a block of their own. No class is named like one.
-/

namespace DocGraph

open Text (trim trimStart join)

variable {name t : Text} {names used : List Text} {c : Char}

/-! ## Names -/

/-- The characters that separate, group, decorate or mark something in a graph or in a comment. -/
def signs : List Char := [',', '.', '(', ')', '[', ']', '\x7b', '\x7d', '*', '@']

/-- Names of which every character is part of the name wherever they are written. -/
structure IsSimpleName (name : Text) : Prop where
  ne_nil : name ≠ []
  plain : ∀ c ∈ name, isBlank c = false ∧ c ∉ signs

theorem isSimpleName_iff :
    (!name.isEmpty && name.all fun c => !isBlank c && !signs.elem c) = true ↔
      IsSimpleName name := by
  simp only [Bool.and_eq_true, Bool.not_eq_true', List.isEmpty_eq_false_iff, List.all_eq_true,
    List.elem_eq_contains, List.contains_eq_mem, decide_eq_false_iff_not]
  exact ⟨fun h => ⟨h.1, h.2⟩, fun h => ⟨h.ne_nil, h.plain⟩⟩

instance : DecidablePred IsSimpleName := fun _ => decidable_of_iff _ isSimpleName_iff

namespace IsSimpleName

theorem notMem (h : IsSimpleName name) (hc : c ∈ signs) : c ∉ name :=
  fun hmem => (h.plain c hmem).2 hc

theorem notMem_of_isBlank (h : IsSimpleName name) (hc : isBlank c = true) : c ∉ name := by
  intro hmem
  rw [(h.plain c hmem).1] at hc
  cases hc

theorem trim_eq (h : IsSimpleName name) : trim name = name :=
  Text.trim_eq_self fun c hc => (h.plain c hc).1

theorem unqualified_eq (h : IsSimpleName name) : unqualified name = name := by
  have hdots : ∀ c ∈ name.reverse, decide (c ≠ '.') = true := by
    intro c hc
    rw [decide_eq_true_eq]
    rintro rfl
    exact h.notMem (by decide) (List.mem_reverse.1 hc)
  rw [unqualified, List.takeWhile_eq_self_iff.2 hdots, List.reverse_reverse, h.trim_eq]

end IsSimpleName

/-! ## Targets -/

theorem IsSimpleName.uncut (h : IsSimpleName name) (depth : Int) : Uncut depth name := by
  rintro before after rfl
  exact absurd (List.mem_append_right _ List.mem_cons_self) (h.notMem (c := ',') (by decide))

theorem IsSimpleName.netDepth_eq (h : IsSimpleName name) : netDepth name = 0 := by
  apply netDepth_eq_zero
  intro c hc
  have hsigns := (h.plain c hc).2
  simp only [signs, List.mem_cons, List.not_mem_nil, or_false, not_or] at hsigns
  simp [bracketStep, hsigns]

theorem allSolid_of_isSimpleName (h : ∀ name ∈ names, IsSimpleName name) : AllSolid names :=
  fun name hname => ⟨(h name hname).trim_eq, (h name hname).ne_nil⟩

theorem separated_of_isSimpleName (h : ∀ name ∈ names, IsSimpleName name) : Separated 0 names := by
  induction names with
  | nil => exact .nil
  | cons name more ih =>
    have hname := h name List.mem_cons_self
    refine .cons (hname.uncut 0) ?_ (ih fun other hother => h other (List.mem_cons_of_mem _ hother))
    rw [hname.netDepth_eq]
    rfl

/-! ## The edge line -/

/-- An edge line without decoration. -/
def usesLine (targets : Text) : Text := "├─[uses]→ ".toList ++ targets

theorem usesLine_eq (targets : Text) : usesLine targets = edgeLine usesRelation .outbound targets :=
  rfl

theorem readEdge?_usesLine (hne : names ≠ []) (h : ∀ name ∈ names, IsSimpleName name) :
    readEdge? (usesLine (join ", ".toList names)) = some ⟨usesRelation, .outbound, names⟩ := by
  have hfeed : '\n' ∉ join ", ".toList names := by
    intro hmem
    rcases Text.of_mem_join hmem with hseparator | ⟨name, hname, hc⟩
    · exact absurd hseparator (by decide)
    · exact (h name hname).notMem_of_isBlank (by decide) hc
  have hsolid := allSolid_of_isSimpleName h
  rw [readEdge?, usesLine_eq, EdgeLine.read?_edgeLine (by decide) (by decide)
    (trim_join hne hsolid) (join_ne_nil hne hsolid) hfeed, Option.bind_some, EdgeLine.edge?,
    readTargets_join (separated_of_isSimpleName h) hsolid]
  cases names with
  | nil => exact absurd rfl hne
  | cons name more => rfl

/-- What holds no bracket draws no edge. -/
theorem read?_of_notMem (h : '[' ∉ t) : EdgeLine.read? t = none := by
  have hkeeps : ∀ {c : Char} {rest : Text}, c ∈ trimStart rest → c ∈ rest := fun hc =>
    (List.dropWhile_sublist _).subset hc
  rw [EdgeLine.read?]
  split
  · next corner rest hstart =>
    split
    · split
      · next relation hbracket =>
        have hrest : '[' ∈ rest := hkeeps (by rw [hbracket]; exact List.mem_cons_self)
        have hmem : '[' ∈ t := hkeeps (by
          rw [hstart]
          exact List.mem_cons_of_mem _ (List.mem_cons_of_mem _ hrest))
        exact absurd hmem h
      · rfl
    · rfl
  · rfl

theorem IsSimpleName.read?_eq_none (h : IsSimpleName name) : EdgeLine.read? name = none :=
  read?_of_notMem (h.notMem (by decide))

/-! ## The block -/

def suggestedLines (name : Text) (used : List Text) : List Text :=
  [name, suggestedUsesLine used, suggestionHint]

/-- The remarks above a suggested block in a file, with the empty line below them. -/
def headerLines : List Text := Text.lines suggestionHeader

theorem suggestedGraph_eq (name : Text) (used : List Text) :
    suggestedGraph name used = (suggestedLines name used).flatMap (· ++ ['\n']) := rfl

theorem suggestionHeader_eq : suggestionHeader = headerLines.flatMap (· ++ ['\n']) := by
  decide +kernel

/-- The line with the used types has the characters of their names and some of its own. -/
theorem mem_suggestedUsesLine (hc : c ∈ suggestedUsesLine used) :
    c ∈ ',' :: suggestedUsesLine [] ∨ ∃ name ∈ used, c ∈ name := by
  have hall : ("  ├─[uses]→ ".toList ++ ", ".toList).all
      (· ∈ ',' :: suggestedUsesLine []) = true := by
    decide +kernel
  have hfixed := fun d hd => of_decide_eq_true (List.all_eq_true.1 hall d hd)
  cases used with
  | nil => exact .inl (List.mem_cons_of_mem _ hc)
  | cons name more =>
    rcases List.mem_append.1 hc with hstart | hnames
    · exact .inl (hfixed c (List.mem_append_left _ hstart))
    · rcases Text.of_mem_join hnames with hseparator | ⟨other, hother, hc⟩
      · exact .inl (hfixed c (List.mem_append_right _ hseparator))
      · exact .inr ⟨other, Text.mem_sort.1 hother, hc⟩

/-- Whether a text is part of a line and holds neither a star nor the start of a marker. -/
def isInline (t : Text) : Bool := t.all fun c => !isLineEnd c && c != '*' && c != '@'

theorem isInline_iff :
    isInline t = true ↔ ∀ c ∈ t, isLineEnd c = false ∧ c ≠ '*' ∧ c ≠ '@' := by
  simp [isInline, and_assoc]

theorem IsSimpleName.isInline (h : IsSimpleName name) : isInline name = true := by
  rw [isInline_iff]
  intro c hc
  refine ⟨?_, fun hstar => ?_, fun hat => ?_⟩
  · rw [Bool.eq_false_iff]
    exact fun hend => h.notMem_of_isBlank (isBlank_of_isLineEnd hend) hc
  · exact h.notMem (by decide) (hstar ▸ hc)
  · exact h.notMem (by decide) (hat ▸ hc)

/-- Suggested lines and the remarks above them are such parts. -/
theorem isInline_of_mem_suggestion {header : List Text} {line : Text} (hname : IsSimpleName name)
    (h : ∀ name ∈ used, IsSimpleName name) (hheader : header = [] ∨ header = headerLines)
    (hline : line ∈ header ++ suggestedLines name used) : isInline line = true := by
  rcases List.mem_append.1 hline with hremark | hline
  · have hremarks : headerLines.all isInline = true := by decide +kernel
    rcases hheader with rfl | rfl
    · cases hremark
    · exact List.all_eq_true.1 hremarks line hremark
  · simp only [suggestedLines, List.mem_cons, List.not_mem_nil, or_false] at hline
    rcases hline with rfl | rfl | rfl
    · exact hname.isInline
    · have hown : isInline (',' :: suggestedUsesLine []) = true := by decide +kernel
      rw [isInline_iff] at hown ⊢
      intro c hc
      rcases mem_suggestedUsesLine hc with hmem | ⟨other, hother, hmem⟩
      · exact hown c hmem
      · exact isInline_iff.1 (h other hother).isInline c hmem
    · decide +kernel

def suggestedEdges (used : List Text) : List Edge :=
  if used = [] then [] else [⟨usesRelation, .outbound, Text.sort used⟩]

theorem sort_ne_nil (hne : used ≠ []) : Text.sort used ≠ [] := by
  obtain ⟨name, more, rfl⟩ := List.exists_cons_of_ne_nil hne
  exact List.ne_nil_of_mem (Text.mem_sort.2 List.mem_cons_self)

theorem suggestedUsesLine_eq (hne : used ≠ []) :
    suggestedUsesLine used = [' ', ' '] ++ usesLine (join ", ".toList (Text.sort used)) := by
  have hindented : "  ├─[uses]→ ".toList = [' ', ' '] ++ "├─[uses]→ ".toList := by decide
  cases used with
  | nil => exact absurd rfl hne
  | cons name more => exact congrArg (· ++ join ", ".toList (Text.sort (name :: more))) hindented

theorem isSimpleName_of_mem_sort (h : ∀ name ∈ used, IsSimpleName name) :
    ∀ name ∈ Text.sort used, IsSimpleName name :=
  fun name hname => h name (Text.mem_sort.1 hname)

/-- Where there are used types, the line that names them is trimmed to an edge line. -/
theorem trim_suggestedUsesLine (hne : used ≠ []) (h : ∀ name ∈ used, IsSimpleName name) :
    trim (suggestedUsesLine used) = usesLine (join ", ".toList (Text.sort used)) := by
  have hsolid := allSolid_of_isSimpleName (isSimpleName_of_mem_sort h)
  rw [suggestedUsesLine_eq hne, Text.trim_append_of_allBlank (by decide), usesLine_eq]
  exact trim_edgeLine (trim_join (sort_ne_nil hne) hsolid) (join_ne_nil (sort_ne_nil hne) hsolid)

/-- The line below the name gives the edges. -/
theorem readEdge?_suggestedUsesLine (h : ∀ name ∈ used, IsSimpleName name) :
    (readEdge? (trim (suggestedUsesLine used))).toList = suggestedEdges used ∧
      (drawsEdge (trim (suggestedUsesLine used)) = true →
        (readEdge? (trim (suggestedUsesLine used))).isSome = true) := by
  by_cases hne : used = []
  · subst hne
    decide +kernel
  · have hread : readEdge? (trim (suggestedUsesLine used)) =
        some ⟨usesRelation, .outbound, Text.sort used⟩ := by
      rw [trim_suggestedUsesLine hne h,
        readEdge?_usesLine (sort_ne_nil hne) (isSimpleName_of_mem_sort h)]
    rw [hread, suggestedEdges, if_neg hne]
    exact ⟨rfl, fun _ => rfl⟩

theorem nodeOfLines_suggestedLines (hname : IsSimpleName name)
    (h : ∀ name ∈ used, IsSimpleName name) :
    nodeOfLines ((suggestedLines name used).map trim) = ⟨name, suggestedEdges used⟩ := by
  have hdraws : drawsEdge name = false := by rw [drawsEdge, hname.read?_eq_none]; rfl
  have hnone : readEdge? name = none := by rw [readEdge?, hname.read?_eq_none]; rfl
  have hhint : readEdge? (trim suggestionHint) = none := by decide +kernel
  have hfind : nameOfLines ((suggestedLines name used).map trim) = name := by
    rw [nameOfLines, suggestedLines, List.map_cons, hname.trim_eq,
      List.find?_cons_of_pos (by rw [hdraws]; rfl)]
    exact hname.trim_eq
  have hedges : edgesOfLines ((suggestedLines name used).map trim) = suggestedEdges used := by
    rw [← (readEdge?_suggestedUsesLine h).1, edgesOfLines, suggestedLines, List.map_cons,
      List.map_cons, List.map_singleton, hname.trim_eq, List.filterMap_cons_none hnone]
    cases hline : readEdge? (trim (suggestedUsesLine used)) with
    | none => rw [List.filterMap_cons_none hline, List.filterMap_cons_none hhint]; rfl
    | some edge => rw [List.filterMap_cons_some hline, List.filterMap_cons_none hhint]; rfl
  rw [nodeOfLines, hfind, hedges]

/-! ## The graph -/

/-- The remarks of the header are one run of lines, which names a node and draws no edge. -/
theorem exists_headerRun : ∃ run : List Text, run ≠ [] ∧ [] ∉ run ∧
    headerLines.map trim = run ++ [[]] ∧ ' ' ∈ nameOfLines run ∧
    ∀ line ∈ run, drawsEdge line = false :=
  ⟨(headerLines.map trim).dropLast, by decide +kernel⟩

theorem blockRuns_suggestedLines (hname : IsSimpleName name) (h : ∀ name ∈ used, IsSimpleName name)
    {header : List Text} (hheader : header = [] ∨ header = headerLines) :
    ∃ above : List (List Text),
      blockRuns ((header ++ suggestedLines name used).map trim) =
        above ++ [(suggestedLines name used).map trim] ∧
      ∀ run ∈ above, ' ' ∈ nameOfLines run ∧ ∀ line ∈ run, drawsEdge line = false := by
  have huses : trim (suggestedUsesLine used) ≠ [] := by
    by_cases hne : used = []
    · subst hne
      decide
    · rw [trim_suggestedUsesLine hne h]
      exact List.append_ne_nil_of_left_ne_nil (by decide) _
  have hempty : [] ∉ (suggestedLines name used).map trim := by
    have hhint : trim suggestionHint ≠ [] := by decide
    simp only [suggestedLines, List.map_cons, List.map_nil, hname.trim_eq, List.mem_cons,
      List.not_mem_nil, or_false, not_or]
    exact ⟨hname.ne_nil.symm, huses.symm, hhint.symm⟩
  have hblock : blockRuns ((suggestedLines name used).map trim) =
      [(suggestedLines name used).map trim] :=
    blockRuns_of_nonempty (List.cons_ne_nil _ _) hempty
  rcases hheader with rfl | rfl
  · exact ⟨[], hblock, by simp⟩
  · obtain ⟨run, hne, hrun, hheader, hname, hdraws⟩ := exists_headerRun
    refine ⟨[run], ?_, by simpa using ⟨hname, hdraws⟩⟩
    rw [List.map_append, hheader, List.append_assoc, List.singleton_append,
      blockRuns_append_empty hne hrun, hblock]
    rfl

theorem uses_suggestedEdges (h : ∀ name ∈ used, IsSimpleName name) (hnodup : used.Nodup) :
    (⟨name, suggestedEdges used⟩ : Node).uses = Text.sort used := by
  have htargets : (⟨name, suggestedEdges used⟩ : Node).usesTargets = Text.sort used := by
    rw [Node.usesTargets, Node.edgesWith, suggestedEdges]
    split
    · next hempty => simp [hempty, Text.sort]
    · simp
  have hsort := isSimpleName_of_mem_sort h
  have hnames : (Text.sort used).map unqualified = Text.sort used := by
    rw [List.map_congr_left fun name hname => (hsort name hname).unqualified_eq, List.map_id']
  have hfilter : (Text.sort used).filter (!·.isEmpty) = Text.sort used := by
    rw [List.filter_eq_self]
    intro name hname
    simpa using (hsort name hname).ne_nil
  rw [Node.uses, htargets, hnames, hfilter, eraseDups_of_nodup (Text.nodup_sort hnodup)]

variable {header : List Text} {content : Text}

/-- The last node is the one of the class, and none before it bears its name. -/
theorem readGraph_suggested (hname : IsSimpleName name) (h : ∀ name ∈ used, IsSimpleName name)
    (hheader : header = [] ∨ header = headerLines)
    (hblocks : blocks content = blockRuns ((header ++ suggestedLines name used).map trim)) :
    ∃ above : List Node, readGraph content = above ++ [⟨name, suggestedEdges used⟩] ∧
      ∀ node ∈ above, node.name ≠ name := by
  obtain ⟨above, hruns, habove⟩ := blockRuns_suggestedLines hname h hheader
  have hkept : [(⟨name, suggestedEdges used⟩ : Node)].filter (!·.isEmpty) =
      [⟨name, suggestedEdges used⟩] := by
    rw [List.filter_eq_self]
    simpa [Node.isEmpty] using hname.ne_nil
  refine ⟨(above.map nodeOfLines).filter (!·.isEmpty), ?_, ?_⟩
  · rw [readGraph, hblocks, hruns, List.map_append, List.map_singleton,
      nodeOfLines_suggestedLines hname h, List.filter_append, hkept]
  · intro node hnode heq
    obtain ⟨run, hrun, rfl⟩ := List.mem_map.1 (List.mem_of_mem_filter hnode)
    have hspace : ' ' ∈ name := heq ▸ (habove run hrun).1
    exact hname.notMem_of_isBlank (by decide) hspace

/-- A text with the blocks of a suggestion documents the used types in order. -/
theorem documentedUses_suggested (hname : IsSimpleName name) (h : ∀ name ∈ used, IsSimpleName name)
    (hnodup : used.Nodup) (hheader : header = [] ∨ header = headerLines)
    (hblocks : blocks content = blockRuns ((header ++ suggestedLines name used).map trim)) :
    documentedUses content name = Text.sort used := by
  obtain ⟨above, hgraph, habove⟩ := readGraph_suggested hname h hheader hblocks
  have hnone : above.find? (·.name == name) = none := by
    rw [List.find?_eq_none]
    intro node hnode
    simpa using habove node hnode
  have hempty : name.isEmpty = false := by simpa using hname.ne_nil
  have hfound : nodeNamed (readGraph content) name = some ⟨name, suggestedEdges used⟩ := by
    rw [nodeNamed, hempty, if_neg Bool.false_ne_true, hgraph, List.find?_append, hnone,
      Option.none_or, List.find?_cons_of_pos (by simp)]
    rfl
  rw [documentedUses, hfound]
  exact uses_suggestedEdges h hnodup

/-- None of its edge lines lacks targets. -/
theorem targetlessLines_suggested (hname : IsSimpleName name)
    (h : ∀ name ∈ used, IsSimpleName name) (hheader : header = [] ∨ header = headerLines)
    (hblocks : blocks content = blockRuns ((header ++ suggestedLines name used).map trim)) :
    targetlessLines content = [] := by
  obtain ⟨above, hruns, habove⟩ := blockRuns_suggestedLines hname h hheader
  have hedges : ∀ line ∈ (blocks content).flatten, drawsEdge line = true →
      (readEdge? line).isSome = true := by
    intro line hline hdraws
    rw [hblocks, hruns, List.flatten_append, List.mem_append, List.flatten_singleton] at hline
    rcases hline with hline | hline
    · obtain ⟨run, hrun, hmem⟩ := List.mem_flatten.1 hline
      rw [(habove run hrun).2 line hmem] at hdraws
      cases hdraws
    · simp only [suggestedLines, List.map_cons, List.map_nil, hname.trim_eq, List.mem_cons,
        List.not_mem_nil, or_false] at hline
      rcases hline with rfl | rfl | rfl
      · rw [drawsEdge, hname.read?_eq_none] at hdraws
        cases hdraws
      · exact (readEdge?_suggestedUsesLine h).2 hdraws
      · exact absurd hdraws (by decide +kernel)
  rw [targetlessLines, List.filter_eq_nil_iff]
  intro line hline
  rw [Bool.and_eq_true, not_and, Option.isNone_iff_eq_none]
  intro hdraws hnone
  have hsome := hedges line hline hdraws
  rw [hnone] at hsome
  cases hsome

end DocGraph
