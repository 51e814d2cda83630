import DocGraph.Proofs.Java.Outline
import DocGraph.Proofs.Project.Scanned
import DocGraph.Proofs.Project.Validation

/-!
# No graph of a scan escapes validation

A graph that was scanned is checked later: its file is found again, the last part of its location is
the name of its declaration, and the search for that name finds one.

The file has to be found by the path that was recorded. A path relative to the base folder leads
there from the folder itself; from elsewhere the path of the base folder is walked and the file
looked up behind it, and nothing else may be at the recorded path.
-/

namespace DocGraph

open Java

variable {disk : Disk} {folder base : Path} {relativeTo : Option Path} {patterns : List Text}
variable {tagPrefix file : Text} {visit : Visit} {source : SourceFile} {content : Bytes}
variable {entry : Entry} {entries : List Entry}

section

variable [Java.SourceReader]

/-- A graph whose file is found is judged by the first declaration with the name of its own. -/
theorem judgedType?_typeEntry {base : Option Path}
    (hsource : source = Disk.sourceOf source.path content)
    (hfinds : disk.Finds base (Path.ofText file) content)
    (hvisit : visit ∈ source.tree.root.typeVisits) (tag : Tag) :
    judgedType? disk base (typeEntry source.tree.root file visit tag) =
      source.tree.root.findType? visit.node.declaredName := by
  obtain ⟨-, found, hfound, hcontent⟩ := hfinds
  have htree : source.tree = readSource (FileText.ofBytes content).text :=
    congrArg SourceFile.tree hsource
  have hname : unqualified (typeLocation source.tree.root.declaredPackage visit) =
      visit.node.declaredName := by
    rw [htree] at hvisit ⊢
    exact unqualified_typeLocation (List.mem_filter.1 hvisit).1 _
  have hfile : (typeEntry source.tree.root file visit tag).file = file := rfl
  have hlocation : (typeEntry source.tree.root file visit tag).location =
      typeLocation source.tree.root.declaredPackage visit := rfl
  simp only [judgedType?, hfile, hlocation, hfound, hname, Disk.sourceAt?, hcontent,
    Option.map_some, Option.bind_eq_bind, Option.bind_some]
  rw [htree]
  rfl

omit [SourceReader] in
theorem isSome_findType? {root : Tree} (h : visit ∈ root.typeVisits) :
    (root.findType? visit.node.declaredName).isSome = true := by
  rw [Tree.findType?, Option.isSome_map, List.find?_isSome]
  exact ⟨visit, h, by simp⟩

/-- Whether what was recorded relative to the base folder is found again: from the folder itself, or
by walking its path, where nothing else is in the way and no look-up is refused. -/
def FindsAgain (disk : Disk) (base : Path) (entries : List Entry) : Prop :=
  disk.isHere base ∨ ∀ entry ∈ classGraphs entries,
    (Path.ofText entry.file).isAbsolute = false →
      disk.isWalkable base = true ∧ disk.isFile (Path.ofText entry.file) = .ok false ∧
        disk.refusal? (base.append (Path.ofText entry.file)) = none

/-- All graphs of a scan are found and have a declaration to be checked against. -/
theorem covered_of_mem_scannedEntries (hwritten : folder.IsWritten)
    (hrelative : relativeTo = none ∨ relativeTo = some base)
    (hagain : FindsAgain disk base (scannedEntries disk folder tagPrefix patterns relativeTo))
    (hentry : entry ∈ classGraphs (scannedEntries disk folder tagPrefix patterns relativeTo)) :
    disk.obstacle? (some base) (Path.ofText entry.file) = none ∧
      (judgedType? disk (some base) entry).isSome = true := by
  obtain ⟨source, hsource, visit, hvisit, tag, htag, rfl⟩ := exists_of_mem_scannedEntries hentry
  have hplace : disk.isHere base ∨
      ((recordedPath disk relativeTo source.path).isAbsolute = false →
        disk.isWalkable base = true ∧
          disk.isFile (recordedPath disk relativeTo source.path) = .ok false ∧
          disk.refusal? (base.append (recordedPath disk relativeTo source.path)) = none) := by
    have hread := ofText_displayName_of_mem hsource hwritten relativeTo
    rw [← hread]
    exact hagain.imp_right fun h => h _ hentry
  obtain ⟨content, hcontent, hfinds⟩ := finds_recorded hsource hwritten hrelative hplace
  refine ⟨hfinds.1, ?_⟩
  rw [judgedType?_typeEntry hcontent hfinds hvisit tag]
  exact isSome_findType? hvisit

theorem validationRefusal?_scannedEntries (hrefusal : sourceRefusal? disk folder = none)
    (hwritten : folder.IsWritten) (hrelative : relativeTo = none ∨ relativeTo = some base)
    (hagain : FindsAgain disk base (scannedEntries disk folder tagPrefix patterns relativeTo)) :
    validationRefusal? disk folder (some base)
      (classGraphs (scannedEntries disk folder tagPrefix patterns relativeTo)) = none := by
  by_cases hgraphs : classGraphs (scannedEntries disk folder tagPrefix patterns relativeTo) = []
  · rw [validationRefusal?, hgraphs]
    rfl
  · exact (validationRefusal?_eq_none_iff hgraphs).2 ⟨hrefusal, fun entry hentry =>
      (covered_of_mem_scannedEntries hwritten hrelative hagain hentry).1⟩

/-- Every graph of a scan is checked by a validation that starts from the same files. -/
theorem validate_covers_scan (disk : Disk) (folderText baseText : Text) (relativeTo : Option Path)
    (patterns others : List Text) (tagPrefix messagePrefix : Text) (entries : List Entry)
    (hrelative : relativeTo = none ∨ relativeTo = some (Path.ofText baseText))
    (hscan : (scan disk (Path.ofText folderText) tagPrefix (patterns.map .pattern)
      relativeTo).outcome = .ok entries)
    (hagain : FindsAgain disk (Path.ofText baseText) entries) :
    ∃ report,
      (validate disk ⟨Path.ofText folderText, some (Path.ofText baseText), others.map .pattern,
        messagePrefix⟩ entries).outcome = .ok report ∧
      report.skipped = 0 ∧ report.checked = (classGraphs entries).length := by
  obtain ⟨hfolder, rfl⟩ := of_outcome_scan hscan
  have hcovered := fun entry (hentry : entry ∈ classGraphs _) =>
    covered_of_mem_scannedEntries (Path.isWritten_ofText folderText) hrelative hagain hentry
  have hrefused := validationRefusal?_scannedEntries hfolder (Path.isWritten_ofText folderText)
    hrelative hagain
  refine ⟨_, by rw [outcome_validate, hrefused], ?_⟩
  have haccounts := accounts_reportWith disk (some (Path.ofText baseText)) messagePrefix
    (indexBelow disk (Path.ofText folderText) others)
    (scannedEntries disk (Path.ofText folderText) tagPrefix patterns relativeTo)
  have hchecked := haccounts.checked
  rw [List.countP_eq_length.2 fun entry hentry => (hcovered entry hentry).2] at hchecked
  have htotal := haccounts.total
  omega

end

/-- The project is scanned and validated from beside it, where nothing has the recorded path. -/
theorem validate_covers_scan_from_beside :
    let files := ((FileSystem.empty.put [] ['h'] .folder).put [] ['p'] .folder).put [['p']]
      "A.java".toList (.file (Utf8.encode "/**@x-graph A*/class A\x7b\x7d".toList))
    let disk : Disk := ⟨files, [['h']]⟩
    let folder := Path.ofText ['/', 'p']
    ∃ entries report,
      (scan disk folder ['x'] [] (some folder)).outcome = .ok entries ∧
      (validate disk ⟨folder, some folder, [], ['x']⟩ entries).outcome = .ok report ∧
      report.skipped = 0 ∧ report.checked = 1 := by
  intro files disk folder
  let entries := scannedEntries disk folder ['x'] [] (some folder)
  have hscan : (scan disk folder ['x'] [] (some folder)).outcome = .ok entries :=
    @outcome_scan_ok _ disk folder (some folder) [] ['x'] (by decide +kernel)
  have hgraphs : (∀ entry ∈ classGraphs entries, (Path.ofText entry.file).isAbsolute = false →
      disk.isWalkable folder = true ∧ disk.isFile (Path.ofText entry.file) = .ok false ∧
        disk.refusal? (folder.append (Path.ofText entry.file)) = none) ∧
        (classGraphs entries).length = 1 := by
    decide +kernel
  obtain ⟨report, hreport, hskipped, hchecked⟩ :=
    validate_covers_scan disk ['/', 'p'] ['/', 'p'] (some folder) [] [] ['x'] ['x'] entries
      (.inr rfl) hscan (.inr hgraphs.1)
  exact ⟨entries, report, hscan, hreport, hskipped, hchecked.trans hgraphs.2⟩

/-- The text of the base folder leads to the project, but there is no folder to step out of. So the
graph is recorded relative to the project and not found again. -/
theorem validate_skips_graph_below_missing_folder :
    let files := ((FileSystem.empty.put [] ['h'] .folder).put [] ['p'] .folder).put [['p']]
      "A.java".toList (.file (Utf8.encode "/**@x-graph A*/class A\x7b\x7d".toList))
    let disk : Disk := ⟨files, [['h']]⟩
    let folder := Path.ofText ['/', 'p']
    let base := Path.ofText "/p/gone/..".toList
    ∃ entries,
      (scan disk folder ['x'] [] (some base)).outcome = .ok entries ∧
      (∀ entry ∈ classGraphs entries, disk.isFile (Path.ofText entry.file) = .ok false) ∧
      (classGraphs entries).length = 1 ∧
      (validate disk ⟨folder, some base, [], ['x']⟩ entries).outcome = .ok ⟨[], [], 0, 1⟩ := by
  intro files disk folder base
  refine ⟨scannedEntries disk folder ['x'] [] (some base), ?_, ?_⟩
  · exact @outcome_scan_ok _ disk folder (some base) [] ['x'] (by decide +kernel)
  · decide +kernel

end DocGraph
