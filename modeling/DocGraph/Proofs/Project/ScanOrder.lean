import DocGraph.Proofs.Java.Outline
import DocGraph.Proofs.Java.Preorder
import DocGraph.Proofs.Project.Relisting
import DocGraph.Proofs.Project.Scanned

/-!
# The order of a scan

A scan lists what the comments in the source files say, without loss or repetition: first the tags
on types and then those on methods, each group in the order of the files, of the declarations in
pre-order and of the tags in a comment. The files contribute one after the other, so locking one of
them takes away its own entries and no others.

That the entries of types are put first is a stable sort, and each file has its own entries in this
order already.
-/

namespace DocGraph

open Java

/-! ## Types before methods -/

/-- Types may stand before anything, methods before methods only. -/
def Entry.mayPrecede (first second : Entry) : Bool :=
  first.level == .architectural || second.level != .architectural

theorem Entry.mayPrecede_trans (a b c : Entry) (hab : a.mayPrecede b = true)
    (hbc : b.mayPrecede c = true) : a.mayPrecede c = true := by
  revert hab hbc
  simp only [mayPrecede]
  cases a.level <;> cases b.level <;> cases c.level <;> decide

theorem Entry.mayPrecede_total (a b : Entry) : (a.mayPrecede b || b.mayPrecede a) = true := by
  simp only [mayPrecede]
  cases a.level <;> cases b.level <;> decide

theorem typesFirst_of_pairwise {entries : List Entry}
    (h : entries.Pairwise fun a b => a.mayPrecede b = true) : typesFirst entries = entries := by
  induction entries with
  | nil => rfl
  | cons entry rest ih =>
    obtain ⟨hfirst, hrest⟩ := List.pairwise_cons.1 h
    have hsame := ih hrest
    rw [typesFirst] at hsame ⊢
    cases hlevel : entry.level with
    | architectural =>
      rw [List.filter_cons_of_pos (by simp [hlevel]), List.filter_cons_of_neg (by simp [hlevel]),
        List.cons_append, hsame]
    | implementation =>
      have hnone : rest.filter (·.level == .architectural) = [] := by
        rw [List.filter_eq_nil_iff]
        intro other hother
        simpa [Entry.mayPrecede, hlevel] using hfirst other hother
      rw [hnone, List.nil_append] at hsame
      rw [List.filter_cons_of_neg (by simp [hlevel]), List.filter_cons_of_pos (by simp [hlevel]),
        hnone, List.nil_append, hsame]

/-- A stable sort leaves the entries of each group in the order in which they were. -/
theorem filter_mergeSort (level : Level) {entries : List Entry} {keep : Entry → Bool}
    (h : ∀ entry, keep entry = true → entry.level = level) :
    (entries.mergeSort Entry.mayPrecede).filter keep = entries.filter keep := by
  have hgroup : (entries.filter keep).Pairwise fun a b => a.mayPrecede b = true := by
    rw [List.pairwise_iff_forall_sublist]
    intro a b hab
    have ha := h a (List.mem_filter.1 (hab.subset (by simp))).2
    have hb := h b (List.mem_filter.1 (hab.subset (by simp))).2
    rw [Entry.mayPrecede, ha, hb]
    cases level <;> decide
  have hsublist := (List.sublist_mergeSort Entry.mayPrecede_trans Entry.mayPrecede_total hgroup
    List.filter_sublist).filter keep
  rw [List.filter_filter] at hsublist
  simp only [Bool.and_self] at hsublist
  refine (hsublist.eq_of_length ?_).symm
  exact ((List.mergeSort_perm entries Entry.mayPrecede).filter keep).length_eq.symm

/-- The entries are put in order by a stable sort. -/
theorem typesFirst_eq_mergeSort (entries : List Entry) :
    typesFirst entries = entries.mergeSort Entry.mayPrecede := by
  have hsorted : (entries.mergeSort Entry.mayPrecede).Pairwise fun a b => a.mayPrecede b = true :=
    List.pairwise_mergeSort Entry.mayPrecede_trans Entry.mayPrecede_total entries
  rw [← typesFirst_of_pairwise hsorted, typesFirst, typesFirst,
    filter_mergeSort .architectural (by simp),
    filter_mergeSort .implementation]
  intro entry hkeep
  cases hlevel : entry.level with
  | architectural => simp [hlevel] at hkeep
  | implementation => rfl

/-! ## The entries of a source -/

/-- The entry of a tag on a method declaration. -/
def methodEntry (root : Tree) (file : Text) (visit : Visit) (tag : Tag) : Entry :=
  .ofTag (methodLocation root.declaredPackage visit) file visit.node.line .implementation tag

/-- The entries of the tags on the types of a source, in order. -/
def entriesOfTypes (tagPrefix file : Text) (root : Tree) : List Entry :=
  root.typesInOrder.flatMap fun visit =>
    (visitTags tagPrefix visit).map (typeEntry root file visit)

/-- The entries of the tags on the methods of a source, in order. -/
def entriesOfMethods (tagPrefix file : Text) (root : Tree) : List Entry :=
  root.methodsInOrder.flatMap fun visit =>
    (visitTags tagPrefix visit).map (methodEntry root file visit)

/-- The entries of the tags in some source files: those of types, file by file, before those of
methods, file by file. -/
def entriesInOrder (disk : Disk) (base : Option Path) (tagPrefix : Text)
    (sources : List SourceFile) : List Entry :=
  (sources.flatMap fun source =>
    entriesOfTypes tagPrefix (displayName disk base source.path) source.tree.root) ++
  (sources.flatMap fun source =>
    entriesOfMethods tagPrefix (displayName disk base source.path) source.tree.root)

variable {disk : Disk} {folder : Path} {base : Option Path} {patterns : List Text}
variable {tagPrefix file : Text}

theorem sourceEntries_eq (root : Tree) :
    sourceEntries tagPrefix file root =
      entriesOfTypes tagPrefix file root ++ entriesOfMethods tagPrefix file root := by
  rw [sourceEntries, Tree.typeVisits_eq, Tree.methodVisits_eq]
  simp only [visitEntries_eq]
  rfl

theorem level_of_mem_entriesOfTypes {root : Tree} {entry : Entry}
    (h : entry ∈ entriesOfTypes tagPrefix file root) : entry.level = .architectural := by
  obtain ⟨visit, -, hentry⟩ := List.mem_flatMap.1 h
  obtain ⟨tag, -, rfl⟩ := List.mem_map.1 hentry
  rfl

theorem level_of_mem_entriesOfMethods {root : Tree} {entry : Entry}
    (h : entry ∈ entriesOfMethods tagPrefix file root) : entry.level = .implementation := by
  obtain ⟨visit, -, hentry⟩ := List.mem_flatMap.1 h
  obtain ⟨tag, -, rfl⟩ := List.mem_map.1 hentry
  rfl

theorem filter_level_sourceEntries (root : Tree) :
    (sourceEntries tagPrefix file root).filter (·.level == .architectural) =
        entriesOfTypes tagPrefix file root ∧
      (sourceEntries tagPrefix file root).filter (·.level != .architectural) =
        entriesOfMethods tagPrefix file root := by
  have htypes := fun entry => @level_of_mem_entriesOfTypes tagPrefix file root entry
  have hmethods := fun entry => @level_of_mem_entriesOfMethods tagPrefix file root entry
  rw [sourceEntries_eq, List.filter_append, List.filter_append]
  constructor
  · rw [List.filter_eq_self.2 fun entry hentry => by rw [htypes entry hentry]; rfl,
      List.filter_eq_nil_iff.2 fun entry hentry => by rw [hmethods entry hentry]; decide,
      List.append_nil]
  · rw [List.filter_eq_nil_iff.2 fun entry hentry => by rw [htypes entry hentry]; decide,
      List.filter_eq_self.2 fun entry hentry => by rw [hmethods entry hentry]; rfl,
      List.nil_append]

section

variable [Java.SourceReader]

theorem scannedEntries_eq :
    scannedEntries disk folder tagPrefix patterns base =
      entriesInOrder disk base tagPrefix (sourcesBelow disk folder patterns) := by
  rw [scannedEntries, typesFirst, entriesInOrder, ← List.flatMap_def, List.filter_flatMap,
    List.filter_flatMap]
  simp only [filter_level_sourceEntries]

/-! ## The scan as a whole -/

/-- A scan gives the tags of all source files in order, and with one file locked those of the
others, unless the listing of the files is refused. Where all is open, the source files are all that
could be. -/
theorem scan_ordered (disk : Disk) (folder : Path) (tagPrefix : Text) (patterns : List Text)
    (base : Option Path) :
    (∀ error, sourceRefusal? disk folder = some error →
      (scan disk folder tagPrefix (patterns.map .pattern) base).outcome = .error (.file error)) ∧
    (sourceRefusal? disk folder = none →
      ∃ sources, ListsSources disk folder patterns sources ∧
        (scan disk folder tagPrefix (patterns.map .pattern) base).outcome =
          .ok (entriesInOrder disk base tagPrefix sources) ∧
        ∀ root names locked, disk.spot folder = .object root .folder →
          disk.files.Locks locked (root ++ names) →
          (scan ⟨locked, disk.cwd⟩ folder tagPrefix (patterns.map .pattern) base).outcome =
            .ok (entriesInOrder disk base tagPrefix
              (sources.filter (·.path != folder.behind names)))) ∧
    (IsOpen disk folder → ListsAll disk folder patterns) := by
  refine ⟨fun error hrefusal => by rw [outcome_scan, hrefusal], ?_,
    fun hopen => hopen.listsAll patterns⟩
  intro hrefusal
  refine ⟨sourcesBelow disk folder patterns, listsSources_sourcesBelow disk folder patterns, ?_, ?_⟩
  · rw [outcome_scan, hrefusal, scannedEntries_eq]
  · intro root names locked hspot hlocks
    rw [outcome_scan, sourceRefusal?_of_locks hspot hlocks, hrefusal, scannedEntries_eq,
      sourcesBelow_of_locks hspot hlocks]
    rfl

end

/-- A file with a tag on a method in front of a tag on a type, read and then locked by taking away
the right to read it. -/
theorem scan_ordered_of_locked_file :
    let text : Text := "class A \x7b /** @aicontext-rule m */ void m() \x7b\x7d ".toList ++
      "/** @aicontext-context e */ enum E \x7b X \x7d \x7d".toList
    let files := (FileSystem.empty.put [] "p".toList .folder).put ["p".toList] "A.java".toList
      (.file (Utf8.encode text))
    let locked := files.restrict ["p".toList, "A.java".toList] ⟨false, true, true⟩
    let folder : Path := ⟨.root, ["p".toList]⟩
    ListsAll ⟨files, []⟩ folder [] ∧
    ∃ sources, ListsSources ⟨files, []⟩ folder [] sources ∧
      (scan ⟨files, []⟩ folder defaultTagPrefix [] (some folder)).outcome =
        .ok (entriesInOrder ⟨files, []⟩ (some folder) defaultTagPrefix sources) ∧
      entriesInOrder ⟨files, []⟩ (some folder) defaultTagPrefix sources =
        [⟨"E".toList, "A.java".toList, 1, .architectural, "context".toList, "e".toList, none⟩,
          ⟨"A.m()".toList, "A.java".toList, 1, .implementation, "rule".toList, "m".toList, none⟩] ∧
      (scan ⟨locked, []⟩ folder defaultTagPrefix [] (some folder)).outcome =
        .ok (entriesInOrder ⟨files, []⟩ (some folder) defaultTagPrefix
          (sources.filter (·.path != ⟨.root, ["p".toList, "A.java".toList]⟩))) := by
  intro text files locked folder
  have hspot : (⟨files, []⟩ : Disk).spot folder = .object ["p".toList] .folder := by
    decide +kernel
  have hthere : files.objectAt (["p".toList] ++ ["A.java".toList]) =
      some (.file (Utf8.encode text)) := by
    decide +kernel
  obtain ⟨-, hordered, hopen⟩ :=
    scan_ordered ⟨files, []⟩ folder defaultTagPrefix [] (some folder)
  have hall := hopen ((isOpen_iff hspot).2 (by decide +kernel))
  obtain ⟨sources, hsources, hscan, hlocked⟩ := hordered hall.refusal
  refine ⟨hall, sources, hsources, hscan, ?_,
    hlocked _ ["A.java".toList] locked hspot (FileSystem.locks_restrict rfl hthere)⟩
  have hrun : (scan ⟨files, []⟩ folder defaultTagPrefix [] (some folder)).outcome = .ok
      [⟨"E".toList, "A.java".toList, 1, .architectural, "context".toList, "e".toList, none⟩,
        ⟨"A.m()".toList, "A.java".toList, 1, .implementation, "rule".toList, "m".toList,
          none⟩] := by
    decide +kernel
  exact Except.ok.inj (hscan.symm.trans hrun)

/-- A folder whose name has 256 bytes holds no source file, and yet its scan gives no entries, not
even none. -/
theorem no_scan_on_long_name :
    let folder : Path := ⟨.root, [List.replicate 256 'a']⟩
    (∀ names content, ¬ IsSource ⟨.empty, []⟩ folder [] names content) ∧
      ¬ ∃ entries, (scan ⟨.empty, []⟩ folder defaultTagPrefix [] none).outcome = .ok entries := by
  intro folder
  have hrefusal : (⟨.empty, []⟩ : Disk).refusal? folder = some ⟨.nameTooLong, folder⟩ := by
    decide +kernel
  have hrun : (scan ⟨.empty, []⟩ folder defaultTagPrefix [] none).outcome =
      .error (.file ⟨.nameTooLong, folder⟩) := by
    decide +kernel
  refine ⟨fun names content => not_isSource_of_refusal? hrefusal, ?_⟩
  rintro ⟨entries, hentries⟩
  cases hrun.symm.trans hentries

end DocGraph
