import DocGraph.Proofs.Java.Dependencies
import DocGraph.Proofs.Java.Naming
import DocGraph.Proofs.Project.Validation
import DocGraph.Proofs.Text.Pieces
import DocGraph.Proofs.Text.Trim

/-!
# Exempt names

An ignore list takes its names out of what is reported about a graph, be they used and not
documented or documented and not used. It adds nothing: all that a graph is charged with is known
without the list.

The list is cut at every comma, where a target is cut at those outside brackets only. So a target
that holds a comma is reported by a name that no list can tell.
-/

namespace DocGraph

open Text (trim join pieces)

/-- Whether a name can be told by an ignore list: it is trimmed, not empty and without a comma. -/
structure IsListable (name : Text) : Prop where
  trimmed : trim name = name
  ne_nil : name ≠ []
  no_comma : ',' ∉ name

/-- Whether a text lists a name: it is the name with blanks around it, alone or joined by commas
with other texts. -/
def Lists (list name : Text) : Prop :=
  ∃ before item after, list = join [','] (before ++ item :: after) ∧ trim item = name

variable {list name : Text}

/-! ## The names of a list -/

/-- A list tells the names that stand in it and can be told. -/
theorem mem_ignoredNames_iff : name ∈ ignoredNames list ↔ IsListable name ∧ Lists list name := by
  simp only [ignoredNames, List.mem_eraseDups, List.mem_filter, List.mem_map, Bool.not_eq_true',
    List.isEmpty_eq_false_iff]
  constructor
  · rintro ⟨⟨item, hitem, rfl⟩, hne⟩
    obtain ⟨before, after, hpieces⟩ := List.append_of_mem hitem
    refine ⟨⟨Text.trim_trim item, hne, fun hcomma => ?_⟩, before, item, after, ?_, rfl⟩
    · have hmem := (Text.trim_isInfix item).subset hcomma
      simpa using Text.not_separator_of_mem_pieces hitem ',' hmem
    · rw [← hpieces, Text.join_pieces]
  · rintro ⟨hname, before, item, after, rfl, rfl⟩
    have hcomma : ∀ c ∈ item, (c == ',') = false := by
      intro c hc
      rw [beq_eq_false_iff_ne]
      rintro rfl
      exact hname.no_comma (Text.mem_trim hc (by decide))
    refine ⟨⟨item, ?_, rfl⟩, hname.ne_nil⟩
    rw [Text.pieces_join_flatMap (List.append_ne_nil_of_right_ne_nil _ (List.cons_ne_nil _ _)),
      List.mem_flatMap]
    refine ⟨item, List.mem_append_right _ List.mem_cons_self, ?_⟩
    rw [Text.pieces_eq_singleton hcomma]
    exact List.mem_singleton_self item

/-! ## Reported names -/

/-- The names that a check finds to be worth an error or a warning. -/
def Check.reported (check : Check) : List Text := check.undocumented ++ check.unused

variable {disk : Disk} {base : Option Path} {index : List Text} {entry : Entry}

theorem mem_reported_comparisonWith (declaration : Java.Tree) :
    name ∈ (Check.compared (comparisonWith entry list index declaration)).reported ↔
      (name ∈ Java.usedTypes declaration index ∧
          name ∉ documentedUses entry.content (unqualified entry.location) ∨
        name ∈ documentedUses entry.content (unqualified entry.location) ∧
          name ∉ Java.usedTypes declaration index) ∧
        name ∉ ignoredNames list := by
  have hfound := @findings_comparisonWith entry list index declaration
  rw [Check.reported, List.mem_append]
  refine (or_congr (hfound.mem_errors name) (hfound.mem_warnings name)).trans ?_
  tauto

section

variable [Java.SourceReader]

/-- With a list, what is reported is what is reported without one, less its names. -/
theorem mem_reported_judgement :
    name ∈ (judgement disk base index entry list).reported ↔
      name ∈ (judgement disk base index entry []).reported ∧ name ∉ ignoredNames list := by
  have hnone : name ∉ ignoredNames [] := fun hmem => by
    simp [ignoredNames, pieces, trim, Text.trimStart] at hmem
  rw [judgement, judgement]
  cases judgedType? disk base entry with
  | none => simp [Check.reported, Check.undocumented, Check.unused]
  | some declaration =>
    simp only [mem_reported_comparisonWith, hnone, not_false_eq_true, and_true]

omit [Java.SourceReader] in
theorem trimmed_of_mem_documentedUses {content type : Text}
    (h : name ∈ documentedUses content type) : trim name = name ∧ name ≠ [] := by
  rw [documentedUses] at h
  split at h
  · next node _ =>
    rw [Node.uses, List.mem_eraseDups, List.mem_filter, List.mem_map] at h
    obtain ⟨⟨target, -, rfl⟩, hne⟩ := h
    exact ⟨Text.trim_trim _, by simpa using hne⟩
  · cases h

/-- A reported name can be listed, unless it holds a comma. -/
theorem isListable_iff_of_mem_reported (hindex : ∀ name ∈ index, IsListable name)
    (h : name ∈ (judgement disk base index entry list).reported) :
    IsListable name ↔ ',' ∉ name := by
  refine ⟨IsListable.no_comma, fun hcomma => ?_⟩
  rw [judgement] at h
  cases hjudged : judgedType? disk base entry with
  | none => simp [hjudged, Check.reported, Check.undocumented, Check.unused] at h
  | some declaration =>
    simp only [hjudged, mem_reported_comparisonWith] at h
    obtain ⟨⟨hused, -⟩ | ⟨hdocumented, -⟩, -⟩ := h
    · exact hindex name (Java.mem_usedTypes_iff.1 hused).2.1
    · obtain ⟨htrim, hne⟩ := trimmed_of_mem_documentedUses hdocumented
      exact ⟨htrim, hne, hcomma⟩

/-! ## Names of a project -/

omit [Java.SourceReader] in
theorem ne_comma_of_plain {c : Char} (h : (Java.Lexeme.isWordPart c || c == '-') = true) :
    c ≠ ',' := by
  rintro rfl
  revert h
  decide

/-- The types that a source declares are named by words. -/
theorem isListable_of_mem_declaredTypeNames {source : Text}
    (h : name ∈ (Java.readSource source).root.declaredTypeNames) : IsListable name := by
  rw [Java.Tree.declaredTypeNames, List.mem_eraseDups, List.mem_filter, List.mem_map] at h
  obtain ⟨⟨visit, hvisit, rfl⟩, hne⟩ := h
  have hparts := Java.SourceReader.plainNames (List.mem_filter.1 hvisit).1
  rw [isPlainName, List.all_eq_true] at hparts
  exact ⟨Text.trim_eq_self fun c hc => isBlank_of_plain (hparts c hc), by simpa using hne,
    fun hcomma => ne_comma_of_plain (hparts _ hcomma) rfl⟩

/-- Every type of a project can be listed. -/
theorem isListable_of_mem_indexBelow {folder : Path} {patterns : List Text}
    (h : name ∈ indexBelow disk folder patterns) : IsListable name := by
  rw [indexBelow, List.mem_eraseDups, List.mem_flatten] at h
  obtain ⟨names, hnames, hname⟩ := h
  obtain ⟨source, hsource, rfl⟩ := List.mem_map.1 hnames
  obtain ⟨file, -, hread⟩ := List.mem_filterMap.1 hsource
  obtain ⟨content, -, rfl⟩ := Option.map_eq_some_iff.1 hread
  exact isListable_of_mem_declaredTypeNames hname

/-! ## Checks -/

/-- Once it is listed, a name is reported no longer, unless it holds a comma. Nothing else comes to
be reported, but what an earlier list had kept from it. -/
theorem check_exempts_listed {earlier : Text} {before : Check}
    (hindex : ∀ name ∈ index, IsListable name)
    (hbefore : (check disk base index entry earlier).outcome = .ok before)
    (hname : name ∈ before.reported) (hlists : Lists list name) :
    ∃ after, (check disk base index entry list).outcome = .ok after ∧
      (name ∉ after.reported ↔ ',' ∉ name) ∧
      ∀ other ∈ after.reported, other ∈ before.reported ∨ other ∈ ignoredNames earlier := by
  cases hobstacle : disk.obstacle? base (Path.ofText entry.file) with
  | some path =>
    rw [outcome_check_of_obstacle hobstacle] at hbefore
    cases hbefore
  | none =>
    rw [outcome_check hobstacle] at hbefore
    cases hbefore
    refine ⟨_, outcome_check hobstacle, ?_, ?_⟩
    · have hcharged := (mem_reported_judgement.1 hname).1
      rw [mem_reported_judgement, mem_ignoredNames_iff, isListable_iff_of_mem_reported hindex hname]
      tauto
    · intro other hother
      have hcharged := (mem_reported_judgement.1 hother).1
      by_cases hignored : other ∈ ignoredNames earlier
      · exact .inr hignored
      · exact .inl (mem_reported_judgement.2 ⟨hcharged, hignored⟩)

end

/-- A use that is not documented is exempt by a list of two names. -/
theorem check_exempts_listed_of_two_names :
    let files := ((FileSystem.empty.put [] "p".toList .folder).put ["p".toList] "A.java".toList
      (.file (Utf8.encode "class A \x7b B b; \x7d class B \x7b\x7d".toList)))
    let entry : Entry :=
      ⟨"A".toList, "A.java".toList, 1, .architectural, TagType.graph.name, "A".toList, none⟩
    let folder : Path := ⟨.root, ["p".toList]⟩
    let index := indexBelow ⟨files, []⟩ folder []
    (∀ name ∈ index, IsListable name) ∧
      (check ⟨files, []⟩ (some folder) index entry []).outcome =
        .ok (.compared ⟨["B".toList], [], []⟩) ∧
      "B".toList ∈ (Check.compared ⟨["B".toList], [], []⟩).reported ∧
      Lists "B, C".toList "B".toList ∧
      ∃ after, (check ⟨files, []⟩ (some folder) index entry "B, C".toList).outcome = .ok after ∧
        ("B".toList ∉ after.reported ↔ ',' ∉ "B".toList) ∧
        ∀ other ∈ after.reported, other ∈ (Check.compared ⟨["B".toList], [], []⟩).reported ∨
          other ∈ ignoredNames [] := by
  intro files entry folder index
  have hindex : ∀ name ∈ index, IsListable name := fun _ => isListable_of_mem_indexBelow
  have hbefore : (check ⟨files, []⟩ (some folder) index entry []).outcome =
      .ok (.compared ⟨["B".toList], [], []⟩) := by
    decide +kernel
  have hname : "B".toList ∈ (Check.compared ⟨["B".toList], [], []⟩).reported := by decide
  have hlists : Lists "B, C".toList "B".toList := ⟨[], "B".toList, [" C".toList], by decide⟩
  exact ⟨hindex, hbefore, hname, hlists, check_exempts_listed hindex hbefore hname hlists⟩

/-- A target with a comma in its brackets is one target, but no list that names it exempts it. -/
theorem check_reports_listed_target :
    let files := ((FileSystem.empty.put [] "p".toList .folder).put ["p".toList] "A.java".toList
      (.file (Utf8.encode "class A \x7b\x7d".toList)))
    let entry : Entry :=
      ⟨"A".toList, "A.java".toList, 1, .architectural, TagType.graph.name,
        "A\n├─[uses]→ Cache(a,b)".toList, none⟩
    let folder : Path := ⟨.root, ["p".toList]⟩
    let name := "Cache(a,b)".toList
    ∃ before after,
      (check ⟨files, []⟩ (some folder) ["A".toList] entry []).outcome = .ok before ∧
        name ∈ before.reported ∧ Lists name name ∧
        (check ⟨files, []⟩ (some folder) ["A".toList] entry name).outcome = .ok after ∧
        name ∈ after.reported := by
  intro files entry folder name
  refine ⟨.compared ⟨[], [name], []⟩, .compared ⟨[], [name], ["Cache(a".toList, "b)".toList]⟩, ?_, ?_,
    ⟨[], name, [], ?_⟩, ?_, ?_⟩ <;> decide +kernel

end DocGraph
