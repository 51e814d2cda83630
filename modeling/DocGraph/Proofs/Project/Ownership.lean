import DocGraph.Proofs.Project.Coverage

/-!
# Whose members a graph is charged with

A location tells neither two declarations of one name in a file apart, nor two of one name in a
package. So a graph is judged by the first declaration of its file with the name of its own, and is
exempted by the first ignore list at its location. Both are those of its own declaration unless
another one shares the name in the file, or the location with an ignore list.
-/

namespace DocGraph

open Java

/-- The content of the first ignore list in the comment of a declaration. -/
def ownIgnoreList? (tagPrefix : Text) (visit : Visit) : Option Text :=
  (visitTagsOf tagPrefix .graphIgnore visit).head?.map Tag.content

/-- The content of the first ignore list at a location, in the order of a scan. -/
def firstIgnoreList? (tagPrefix : Text) (sources : List SourceFile) (location : Text) :
    Option Text :=
  sources.findSome? fun source => source.tree.root.typeVisits.findSome? fun visit =>
    if typeLocation source.tree.root.declaredPackage visit = location then
      ownIgnoreList? tagPrefix visit
    else none

/-- The names that a graph tag is charged with, given a declaration, an ignore list and the types of
the project. -/
structure Charges (declaration : Tree) (ignoreList : Text) (index : List Text) (tag : Tag)
    (names : List Text) : Prop where
  ascending : names.Pairwise fun a b => Text.le b a = false
  mem_iff : ∀ name, name ∈ names ↔ name ∈ usedTypes declaration index ∧
    name ∉ documentedUses tag.content declaration.declaredName ∧ name ∉ ignoredNames ignoreList

/-- Whether nothing else stands for a declaration: no other one has its name in its file, and no
other one has an ignore list at its location. -/
structure Unshared (tagPrefix : Text) (sources : List SourceFile) (source : SourceFile)
    (visit : Visit) : Prop where
  name : ∀ other ∈ source.tree.root.typeVisits,
    other.node.declaredName = visit.node.declaredName → other.node = visit.node
  location : ∀ file ∈ sources, ∀ other ∈ file.tree.root.typeVisits,
    typeLocation file.tree.root.declaredPackage other =
      typeLocation source.tree.root.declaredPackage visit →
    ownIgnoreList? tagPrefix other = none ∨
      ownIgnoreList? tagPrefix other = ownIgnoreList? tagPrefix visit

variable {disk : Disk} {folder base : Path} {relativeTo : Option Path} {patterns : List Text}
variable {tagPrefix messagePrefix : Text} {sources : List SourceFile} {source : SourceFile}
variable {visit : Visit} {index : List Text} {entries : List Entry}

/-! ## Ignore lists -/

/-- All entries of a declaration have its location, so the first one is found or none. -/
theorem find?_map_typeEntry (root : Tree) (file location : Text) (tags : List Tag) :
    ((tags.map (typeEntry root file visit)).find? (·.location == location)).map Entry.content =
      if typeLocation root.declaredPackage visit = location then tags.head?.map Tag.content
      else none := by
  have hlocation : ∀ tag : Tag, (typeEntry root file visit tag).location =
      typeLocation root.declaredPackage visit := fun _ => rfl
  by_cases h : typeLocation root.declaredPackage visit = location
  · rw [if_pos h]
    cases tags with
    | nil => rfl
    | cons tag rest =>
      rw [List.map_cons, List.find?_cons_of_pos (by simp [hlocation, h])]
      rfl
  · rw [if_neg h, Option.map_eq_none_iff, List.find?_eq_none]
    intro entry hentry
    obtain ⟨tag, -, rfl⟩ := List.mem_map.1 hentry
    simp [hlocation, h]

section

variable [SourceReader]

theorem ignoreListAt_scannedEntries (location : Text) :
    ignoreListAt (scannedEntries disk folder tagPrefix patterns relativeTo) location =
      (firstIgnoreList? tagPrefix (sourcesBelow disk folder patterns) location).getD [] := by
  have hfind : ∀ entries : List Entry,
      entries.find? (fun entry => entry.tagsClass .graphIgnore && entry.location == location) =
        (entries.filter (·.tagsClass .graphIgnore)).find? (·.location == location) :=
    fun entries => by simp only [List.find?_filter, Bool.decide_and, Bool.decide_eq_true]
  have hfirst : firstIgnoreList? tagPrefix (sourcesBelow disk folder patterns) location =
      (((scannedEntries disk folder tagPrefix patterns relativeTo).filter
        (·.tagsClass .graphIgnore)).find? (·.location == location)).map Entry.content := by
    rw [firstIgnoreList?, filter_scannedEntries, List.find?_flatMap, List.map_findSome?]
    congr 1
    funext source
    simp only [Function.comp, typeEntries, List.find?_flatMap, List.map_findSome?]
    congr 1
    funext visit
    exact (find?_map_typeEntry _ _ location _).symm
  rw [ignoreListAt, hfind, hfirst]
  cases ((scannedEntries disk folder tagPrefix patterns relativeTo).filter
    (·.tagsClass .graphIgnore)).find? (·.location == location) <;> rfl

omit [SourceReader] in
/-- An ignore list that is not shared is the own one. -/
theorem firstIgnoreList?_of_unshared (hsource : source ∈ sources)
    (hvisit : visit ∈ source.tree.root.typeVisits) (h : Unshared tagPrefix sources source visit) :
    firstIgnoreList? tagPrefix sources (typeLocation source.tree.root.declaredPackage visit) =
      ownIgnoreList? tagPrefix visit := by
  cases hfirst : firstIgnoreList? tagPrefix sources
      (typeLocation source.tree.root.declaredPackage visit) with
  | none =>
    rw [firstIgnoreList?, List.findSome?_eq_none_iff] at hfirst
    have hown := List.findSome?_eq_none_iff.1 (hfirst source hsource) visit hvisit
    rw [if_pos rfl] at hown
    exact hown.symm
  | some ignoreList =>
    rw [firstIgnoreList?] at hfirst
    obtain ⟨file, hfile, hin⟩ := List.exists_of_findSome?_eq_some hfirst
    obtain ⟨other, hother, hlist⟩ := List.exists_of_findSome?_eq_some hin
    by_cases hlocation : typeLocation file.tree.root.declaredPackage other =
        typeLocation source.tree.root.declaredPackage visit
    · rw [if_pos hlocation] at hlist
      rcases h.location file hfile other hother hlocation with hnone | hsame
      · rw [hnone] at hlist
        cases hlist
      · rw [← hsame, hlist]
    · rw [if_neg hlocation] at hlist
      cases hlist

/-! ## Charges -/

/-- The names that a scanned graph is charged with. -/
def chargedNames (disk : Disk) (base : Option Path) (index : List Text) (entries : List Entry)
    (entry : Entry) : List Text :=
  (judgement disk base index entry (ignoreListAt entries entry.location)).undocumented

theorem errors_reportWith (base : Option Path) :
    (reportWith disk base messagePrefix index entries).errors =
      (classGraphs entries).flatMap fun entry =>
        (chargedNames disk base index entries entry).map
          (Report.undocumentedMessage messagePrefix entry) := by
  simp only [reportWith, Report.errors_ofAll, List.flatMap_map, Report.errors_ofCheck, chargedNames]

omit [SourceReader] in
theorem findType?_of_unshared (hvisit : visit ∈ source.tree.root.typeVisits)
    (h : Unshared tagPrefix sources source visit) :
    source.tree.root.findType? visit.node.declaredName = some visit.node := by
  have hsome := isSome_findType? hvisit
  rw [Tree.findType?, Option.isSome_map, Option.isSome_iff_exists] at hsome
  obtain ⟨other, hfind⟩ := hsome
  have hname : other.node.declaredName = visit.node.declaredName := by
    simpa using List.find?_some hfind
  rw [Tree.findType?, hfind, Option.map_some, h.name other (List.mem_of_find?_eq_some hfind) hname]

/-- A graph whose file is found is charged as the first declaration with the name of its own says.
-/
theorem charges_of_finds {base : Option Path} {file : Text} {content : Bytes} {declaration : Tree}
    (hsource : source = Disk.sourceOf source.path content)
    (hfinds : disk.Finds base (Path.ofText file) content)
    (hvisit : visit ∈ source.tree.root.typeVisits)
    (hjudged : source.tree.root.findType? visit.node.declaredName = some declaration)
    (entries : List Entry) (index : List Text) (tag : Tag) :
    Charges declaration (ignoreListAt entries (typeLocation source.tree.root.declaredPackage visit))
      index tag
      (chargedNames disk base index entries (typeEntry source.tree.root file visit tag)) := by
  have hname : declaration.declaredName = visit.node.declaredName := by
    rw [Tree.findType?] at hjudged
    obtain ⟨other, hfind, rfl⟩ := Option.map_eq_some_iff.1 hjudged
    simpa using List.find?_some hfind
  have hlocation : unqualified (typeLocation source.tree.root.declaredPackage visit) =
      declaration.declaredName := by
    have htree : source.tree = readSource (FileText.ofBytes content).text :=
      congrArg SourceFile.tree hsource
    rw [hname]
    rw [htree] at hvisit ⊢
    exact unqualified_typeLocation (List.mem_filter.1 hvisit).1 _
  have hcheck := judgedType?_typeEntry hsource hfinds hvisit tag
  rw [hjudged] at hcheck
  have hfindings := @findings_comparisonWith (typeEntry source.tree.root file visit tag)
    (ignoreListAt entries (typeLocation source.tree.root.declaredPackage visit)) index declaration
  rw [chargedNames, judgement, hcheck]
  refine ⟨hfindings.ascending, ?_⟩
  intro name
  rw [← hlocation]
  exact hfindings.mem_errors name

/-- In the working directory of the project, each graph of a scan is charged with the names that the
first declaration with its name in its file uses, that it does not document and that the first
ignore list at its location does not hold. These are its own declaration and ignore list if they are
not shared. -/
theorem validate_charges_by_name (disk : Disk) (folderText baseText : Text)
    (relativeTo : Option Path) (patterns others : List Text) (tagPrefix messagePrefix : Text)
    (entries : List Entry) (hhere : disk.isHere (Path.ofText baseText))
    (hrelative : relativeTo = none ∨ relativeTo = some (Path.ofText baseText))
    (hscan : (scan disk (Path.ofText folderText) tagPrefix (patterns.map .pattern)
      relativeTo).outcome = .ok entries) :
    let sources := sourcesBelow disk (Path.ofText folderText) patterns
    let index := indexBelow disk (Path.ofText folderText) others
    let entryOf := fun (source : SourceFile) => typeEntry source.tree.root
      (displayName disk relativeTo source.path)
    ∃ report, ∃ charged : Entry → List Text,
      (validate disk ⟨Path.ofText folderText, some (Path.ofText baseText), others.map .pattern,
        messagePrefix⟩ entries).outcome = .ok report ∧
      report.errors = sources.flatMap (fun source =>
        source.tree.root.typeVisits.flatMap fun visit =>
          (visitTagsOf tagPrefix .graph visit).flatMap fun tag =>
            (charged (entryOf source visit tag)).map
              (Report.undocumentedMessage messagePrefix (entryOf source visit tag))) ∧
      ∀ source ∈ sources, ∀ visit ∈ source.tree.root.typeVisits,
        ∀ tag ∈ visitTagsOf tagPrefix .graph visit,
          (∃ declaration,
            source.tree.root.findType? visit.node.declaredName = some declaration ∧
            Charges declaration ((firstIgnoreList? tagPrefix sources
              (typeLocation source.tree.root.declaredPackage visit)).getD []) index tag
              (charged (entryOf source visit tag))) ∧
          (Unshared tagPrefix sources source visit →
            Charges visit.node ((ownIgnoreList? tagPrefix visit).getD []) index tag
              (charged (entryOf source visit tag))) := by
  intro sources index entryOf
  obtain ⟨hfolder, rfl⟩ := of_outcome_scan hscan
  have hwritten := Path.isWritten_ofText folderText
  have hrefused : validationRefusal? disk (Path.ofText folderText) (some (Path.ofText baseText))
      (classGraphs (scannedEntries disk (Path.ofText folderText) tagPrefix patterns relativeTo)) =
        none :=
    validationRefusal?_scannedEntries hfolder hwritten hrelative (.inl hhere)
  refine ⟨_, chargedNames disk (some (Path.ofText baseText)) index
    (scannedEntries disk (Path.ofText folderText) tagPrefix patterns relativeTo),
    by rw [outcome_validate, hrefused], ?_, ?_⟩
  · rw [errors_reportWith, classGraphs, filter_scannedEntries]
    simp only [typeEntries, List.flatMap_assoc, List.flatMap_map]
    rfl
  · intro source hsource visit hvisit tag htag
    obtain ⟨content, hcontent, hfinds⟩ :=
      finds_recorded hsource hwritten hrelative (.inl hhere)
    obtain ⟨declaration, hjudged⟩ := Option.isSome_iff_exists.1 (isSome_findType? hvisit)
    have hcharges := charges_of_finds hcontent hfinds hvisit hjudged
      (scannedEntries disk (Path.ofText folderText) tagPrefix patterns relativeTo) index tag
    rw [ignoreListAt_scannedEntries] at hcharges
    refine ⟨⟨declaration, hjudged, hcharges⟩, ?_⟩
    intro hunshared
    rw [firstIgnoreList?_of_unshared hsource hvisit hunshared] at hcharges
    rw [findType?_of_unshared hvisit hunshared] at hjudged
    cases hjudged
    exact hcharges

end

/-- The one class with a graph is charged with the other one. -/
theorem validate_charges_by_name_of_one_graph :
    let files := (FileSystem.empty.put [] ['p'] .folder).put [['p']] "A.java".toList
      (.file (Utf8.encode "/**@x-graph A*/class A\x7bB b;\x7dclass B\x7b\x7d".toList))
    let disk : Disk := ⟨files, [['p']]⟩
    let folder := Path.ofText ['/', 'p']
    let entryOf := fun (source : SourceFile) => typeEntry source.tree.root
      (displayName disk (some folder) source.path)
    ∃ entries report, ∃ charged : Entry → List Text,
      (scan disk folder ['x'] [] (some folder)).outcome = .ok entries ∧
      (validate disk ⟨folder, some folder, [], ['x']⟩ entries).outcome = .ok report ∧
      report.errors = (sourcesBelow disk folder []).flatMap (fun source =>
        source.tree.root.typeVisits.flatMap fun visit =>
          (visitTagsOf ['x'] .graph visit).flatMap fun tag =>
            (charged (entryOf source visit tag)).map
              (Report.undocumentedMessage ['x'] (entryOf source visit tag))) ∧
      report.errors = (classGraphs entries).map fun entry =>
        Report.undocumentedMessage ['x'] entry ['B'] := by
  intro files disk folder entryOf
  let entries := scannedEntries disk folder ['x'] [] (some folder)
  have hscan : (scan disk folder ['x'] [] (some folder)).outcome = .ok entries :=
    @outcome_scan_ok _ disk folder (some folder) [] ['x'] (by decide +kernel)
  have hmessages : (validate disk ⟨folder, some folder, [], ['x']⟩ entries).outcome.map
      Report.errors = .ok ((classGraphs entries).map fun entry =>
        Report.undocumentedMessage ['x'] entry ['B']) := by
    decide +kernel
  obtain ⟨report, charged, hreport, herrors, -⟩ :=
    validate_charges_by_name disk ['/', 'p'] ['/', 'p'] (some folder) [] [] ['x'] ['x'] entries
      ⟨by decide +kernel, by decide +kernel⟩ (.inr rfl) hscan
  have houtcome : (validate disk ⟨folder, some folder, [], ['x']⟩ entries).outcome = .ok report :=
    hreport
  rw [houtcome] at hmessages
  exact ⟨entries, report, charged, hscan, hreport, herrors, Except.ok.inj hmessages⟩

/-- The second of two builders in a file uses no `X`, and yet its graph is charged with it, as the
first one uses it. -/
theorem validate_charges_second_builder_as_first :
    let code := ("class X\x7b\x7dclass Y\x7b\x7d" ++
      "class P\x7b/**@x-graph B*/class B\x7bX x;\x7d\x7d\n" ++
      "class Q\x7b/**@x-graph B*/class B\x7bY y;\x7d\x7d").toList
    let files := (FileSystem.empty.put [] ['p'] .folder).put [['p']] "P.java".toList
      (.file (Utf8.encode code))
    let disk : Disk := ⟨files, [['p']]⟩
    let folder := Path.ofText ['/', 'p']
    ∃ entries,
      (scan disk folder ['x'] [] (some folder)).outcome = .ok entries ∧
      ((readSource code).root.typeVisits.filter (·.node.declaredName == ['B'])).map (fun visit =>
        (visit.node.line, usedTypes visit.node (indexBelow disk folder []))) =
          [(1, [['X']]), (2, [['Y']])] ∧
      (classGraphs entries).map Entry.line = [1, 2] ∧
      (validate disk ⟨folder, some folder, [], ['x']⟩ entries).outcome.map Report.errors =
        .ok ((classGraphs entries).map fun entry =>
          Report.undocumentedMessage ['x'] entry ['X']) := by
  intro code files disk folder
  refine ⟨scannedEntries disk folder ['x'] [] (some folder), ?_, ?_⟩
  · exact @outcome_scan_ok _ disk folder (some folder) [] ['x'] (by decide +kernel)
  · decide +kernel

end DocGraph
