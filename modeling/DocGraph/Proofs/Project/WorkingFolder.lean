import DocGraph.Proofs.Project.Scanned
import DocGraph.Proofs.Project.Validation

/-!
# Working directories

A scan of an absolute folder relative to an absolute folder records the same paths from everywhere,
and a validation looks for them in the working directory first. So its outcome is the same from two
working directories in which each of these paths leads nowhere, or to the very file that it leads to
from the base folder, and from which it can be looked up, or from neither.
-/

namespace DocGraph

open Java

variable {files : FileSystem} {here there : Route} {folder base file : Path} {patterns : List Text}
variable {tagPrefix : Text} {index : List Text} {entries : List Entry} {entry : Entry}

namespace Disk

variable {disk : Disk}

/-- Whether a path leads to the same file from the working directory as from a folder, if to any. -/
def agreesBelow (disk : Disk) (base : Path) (file : Path) : Prop :=
  disk.hasFile file = true → disk.spot file = disk.spot (base.append file)

instance (disk : Disk) (base file : Path) : Decidable (disk.agreesBelow base file) :=
  inferInstanceAs (Decidable (_ → _))

theorem refusal?_of_agreesBelow (hagrees : disk.agreesBelow base file)
    (h : disk.hasFile file = true) : disk.refusal? (base.append file) = none := by
  have hrefusal := refusal?_of_hasFile h
  obtain ⟨route, object, hspot, -⟩ := hasFile_iff.1 h
  exact refusal?_of_spot ((hagrees h).symm.trans hspot)

/-- Where the working directory does not interfere, a path is looked up there and below the base
folder, whether a file is found there or not. -/
theorem obstacle?_of_agreesBelow (hagrees : disk.agreesBelow base file) :
    disk.obstacle? (some base) file =
      match disk.refusal? file with
      | some error => some error
      | none => disk.refusal? (base.append file) := by
  rw [obstacle?]
  cases disk.refusal? file with
  | some error => rfl
  | none =>
    cases hfile : disk.hasFile file with
    | true => exact (refusal?_of_agreesBelow hagrees hfile).symm
    | false => rfl

theorem content?_of_agreesBelow (hagrees : disk.agreesBelow base file) :
    (disk.resolved? (some base) file).bind disk.content? = disk.content? (base.append file) := by
  have hnone : ∀ path, disk.hasFile path = false → disk.content? path = none := by
    intro path hno
    cases hcontent : disk.content? path with
    | none => rfl
    | some content => cases hno.symm.trans (hasFile_of_content? hcontent)
  rw [resolved?]
  cases hfile : disk.hasFile file with
  | true =>
    rw [if_pos rfl, Option.bind_some]
    ext content
    rw [content?_eq_some_iff, content?_eq_some_iff, read_eq_ok_iff, read_eq_ok_iff, hagrees hfile]
  | false =>
    cases hbelow : disk.hasFile (base.append file) with
    | true => simp [Option.filter, hbelow]
    | false => simp [Option.filter, hbelow, hnone]

/-! ## Absolute paths -/

theorem refusal?_of_isAbsolute (h : file.isAbsolute = true) (here there : Route) :
    (⟨files, here⟩ : Disk).refusal? file = (⟨files, there⟩ : Disk).refusal? file := by
  rw [refusal?, refusal?, spot_of_isAbsolute h here there]

theorem read_of_isAbsolute (h : file.isAbsolute = true) (here there : Route) :
    (⟨files, here⟩ : Disk).read file = (⟨files, there⟩ : Disk).read file := by
  rw [read, read, spot_of_isAbsolute h here there]

theorem sees_of_isAbsolute (h : folder.isAbsolute = true) (here there : Route)
    (names : List Text) :
    (⟨files, here⟩ : Disk).sees folder names = (⟨files, there⟩ : Disk).sees folder names := by
  induction names generalizing folder with
  | nil => rfl
  | cons name rest ih =>
    have hchild : (folder.child name).isAbsolute = true := h
    rw [sees, sees, ih hchild, lists, lists, spot_of_isAbsolute h here there]

end Disk

/-- The listing of an absolute folder is the same from everywhere. -/
theorem sourceRefusal?_of_isAbsolute (h : folder.isAbsolute = true) (here there : Route) :
    sourceRefusal? ⟨files, here⟩ folder = sourceRefusal? ⟨files, there⟩ folder := by
  have hseen : ∀ route, seenNames ⟨files, here⟩ folder route =
      seenNames ⟨files, there⟩ folder route := by
    intro route
    have hsees := funext (@Disk.sees_of_isAbsolute files folder h here there)
    rw [seenNames, seenNames, hsees]
  have hrefusal : ∀ names, (⟨files, here⟩ : Disk).refusal? (folder.behind names) =
      (⟨files, there⟩ : Disk).refusal? (folder.behind names) :=
    fun names => @Disk.refusal?_of_isAbsolute files (folder.behind names) h here there
  simp only [sourceRefusal?, listingRefusal?, endingNames, overlongFolder?, hseen, hrefusal,
    Disk.refusal?_of_isAbsolute h here there, Disk.spot_of_isAbsolute h here there]

/-! ## Scans -/

section

variable [SourceReader]

omit [SourceReader] in
theorem routeFrom_of_isAbsolute (h : file.isAbsolute = true) (here there : Route) :
    file.routeFrom here = file.routeFrom there := by
  simp only [Path.routeFrom, h, if_true]

/-- An absolute folder has the same source files from everywhere. -/
theorem sourcesBelow_of_isAbsolute (h : folder.isAbsolute = true) (here there : Route) :
    sourcesBelow ⟨files, here⟩ folder patterns = sourcesBelow ⟨files, there⟩ folder patterns := by
  have himp : ∀ here there names content, IsSource ⟨files, here⟩ folder patterns names content →
      IsSource ⟨files, there⟩ folder patterns names content := by
    rintro here there names content ⟨⟨route, hspot, hobject, hsees⟩, hread, hending, hkept⟩
    have hbehind : (folder.behind names).isAbsolute = true := h
    rw [Disk.spot_of_isAbsolute h here there] at hspot
    rw [Disk.sees_of_isAbsolute h here there] at hsees
    rw [Disk.read_of_isAbsolute hbehind here there] at hread
    exact ⟨⟨route, hspot, hobject, hsees⟩, hread, hending, hkept⟩
  exact sourcesBelow_congr fun names content => ⟨himp here there _ _, himp there here _ _⟩

omit [SourceReader] in
theorem displayName_of_isAbsolute (hfile : file.isAbsolute = true) (hbase : base.isAbsolute = true)
    (here there : Route) : displayName ⟨files, here⟩ (some base) file =
      displayName ⟨files, there⟩ (some base) file := by
  simp only [displayName, recordedPath, Path.resolve, routeFrom_of_isAbsolute hfile here there,
    routeFrom_of_isAbsolute hbase here there]

theorem scannedEntries_of_isAbsolute (hfolder : folder.isAbsolute = true)
    (hbase : base.isAbsolute = true) (here there : Route) :
    scannedEntries ⟨files, here⟩ folder tagPrefix patterns (some base) =
      scannedEntries ⟨files, there⟩ folder tagPrefix patterns (some base) := by
  rw [scannedEntries, scannedEntries, sourcesBelow_of_isAbsolute hfolder here there]
  congr 2
  apply List.map_congr_left
  intro source hsource
  have hfile : source.path.isAbsolute = true := by
    obtain ⟨names, target, content, rfl, -⟩ := exists_of_mem_sourcesBelow hsource
    exact hfolder
  rw [displayName_of_isAbsolute hfile hbase here there]

/-! ## Validations -/

theorem indexBelow_of_isAbsolute (h : folder.isAbsolute = true) (here there : Route) :
    indexBelow ⟨files, here⟩ folder patterns = indexBelow ⟨files, there⟩ folder patterns := by
  rw [indexBelow, indexBelow, sourcesBelow_of_isAbsolute h here there]

/-- Two working directories from which the graphs lead to the same declarations give the same
report. -/
theorem reportWith_congr {first second : Disk} {base : Option Path}
    (h : ∀ entry ∈ classGraphs entries,
      judgedType? first base entry = judgedType? second base entry) :
    reportWith first base tagPrefix index entries =
      reportWith second base tagPrefix index entries := by
  rw [reportWith, reportWith]
  congr 1
  apply List.map_congr_left
  intro entry hentry
  rw [judgement, judgement, h entry hentry]

omit [SourceReader] in
theorem validationRefusal?_congr {first second : Disk} {base : Option Path} {graphs : List Entry}
    (hfolder : sourceRefusal? first folder = sourceRefusal? second folder)
    (h : ∀ entry ∈ graphs, first.obstacle? base (Path.ofText entry.file) =
      second.obstacle? base (Path.ofText entry.file)) :
    validationRefusal? first folder base graphs = validationRefusal? second folder base graphs := by
  have hgraphs : graphs.findSome? (fun entry => first.obstacle? base (Path.ofText entry.file)) =
      graphs.findSome? fun entry => second.obstacle? base (Path.ofText entry.file) := by
    rw [← List.head?_filterMap, ← List.head?_filterMap, List.filterMap_congr h]
  rw [validationRefusal?, validationRefusal?, hfolder, hgraphs]

/-- The outcome of a validation is the same from two working directories, if from both of them the
path of every graph is refused alike and leads nowhere else than below the base folder. -/
theorem outcome_validate_of_agreesBelow (hfolder : folder.isAbsolute = true)
    (hbase : base.isAbsolute = true)
    (h : ∀ entry ∈ classGraphs entries,
      (⟨files, here⟩ : Disk).refusal? (Path.ofText entry.file) =
        (⟨files, there⟩ : Disk).refusal? (Path.ofText entry.file) ∧
      (⟨files, here⟩ : Disk).agreesBelow base (Path.ofText entry.file) ∧
      (⟨files, there⟩ : Disk).agreesBelow base (Path.ofText entry.file)) :
    (validate ⟨files, here⟩ ⟨folder, some base, patterns.map .pattern, tagPrefix⟩ entries).outcome =
      (validate ⟨files, there⟩ ⟨folder, some base, patterns.map .pattern, tagPrefix⟩
        entries).outcome := by
  have happend : ∀ file : Path, (base.append file).isAbsolute = true := by
    intro file
    rw [Path.append]
    split
    · assumption
    · exact hbase
  have hrefused : validationRefusal? ⟨files, here⟩ folder (some base) (classGraphs entries) =
      validationRefusal? ⟨files, there⟩ folder (some base) (classGraphs entries) := by
    apply validationRefusal?_congr (sourceRefusal?_of_isAbsolute hfolder here there)
    intro entry hentry
    obtain ⟨hrefusal, hhere, hthere⟩ := h entry hentry
    rw [Disk.obstacle?_of_agreesBelow hhere, Disk.obstacle?_of_agreesBelow hthere, hrefusal,
      Disk.refusal?_of_isAbsolute (happend _) here there]
  have hreport : reportWith ⟨files, here⟩ (some base) tagPrefix
      (indexBelow ⟨files, there⟩ folder patterns) entries =
        reportWith ⟨files, there⟩ (some base) tagPrefix
          (indexBelow ⟨files, there⟩ folder patterns) entries := by
    apply reportWith_congr
    intro entry hentry
    obtain ⟨-, hhere, hthere⟩ := h entry hentry
    rw [judgedType?_eq, judgedType?_eq, Disk.content?_of_agreesBelow hhere,
      Disk.content?_of_agreesBelow hthere, Disk.content?, Disk.content?,
      Disk.read_of_isAbsolute (happend _) here there]
  rw [outcome_validate, outcome_validate, hrefused, indexBelow_of_isAbsolute hfolder here there,
    hreport]

theorem outcome_scan_of_isAbsolute (hfolder : folder.isAbsolute = true)
    (hbase : base.isAbsolute = true) (here there : Route) :
    (scan ⟨files, here⟩ folder tagPrefix (patterns.map .pattern) (some base)).outcome =
      (scan ⟨files, there⟩ folder tagPrefix (patterns.map .pattern) (some base)).outcome := by
  rw [outcome_scan, outcome_scan, sourceRefusal?_of_isAbsolute hfolder here there,
    scannedEntries_of_isAbsolute hfolder hbase here there]

/-! ## A scan and a validation -/

/-- A validation after a scan has the same outcome from two working directories, neither of which
interferes with a recorded path: it is refused alike from both, and a file that it leads to from one
of them is the one that it leads to below the base folder. -/
theorem validate_scan_from_elsewhere (files : FileSystem) (here there : Route)
    (folderText baseText : Text) (patterns others : List Text) (tagPrefix messagePrefix : Text)
    (hfolder : (Path.ofText folderText).isAbsolute = true)
    (hbase : (Path.ofText baseText).isAbsolute = true) :
    let folder := Path.ofText folderText
    let base := Path.ofText baseText
    let scanFrom := fun cwd =>
      (scan ⟨files, cwd⟩ folder tagPrefix (patterns.map .pattern) (some base)).outcome
    let validateFrom := fun cwd entries =>
      (validate ⟨files, cwd⟩ ⟨folder, some base, others.map .pattern, messagePrefix⟩
        entries).outcome
    scanFrom here = scanFrom there ∧
      ∀ entries, scanFrom here = .ok entries →
        (∀ entry ∈ classGraphs entries,
          (⟨files, here⟩ : Disk).refusal? (Path.ofText entry.file) =
            (⟨files, there⟩ : Disk).refusal? (Path.ofText entry.file) ∧
          (⟨files, here⟩ : Disk).agreesBelow base (Path.ofText entry.file) ∧
          (⟨files, there⟩ : Disk).agreesBelow base (Path.ofText entry.file)) →
        validateFrom here entries = validateFrom there entries := by
  intro folder base scanFrom validateFrom
  refine ⟨outcome_scan_of_isAbsolute hfolder hbase here there, ?_⟩
  intro entries _ hagrees
  exact outcome_validate_of_agreesBelow hfolder hbase hagrees

end

/-- From beside the project nothing is at the recorded path, and from inside it is the file itself.
-/
theorem validate_scan_from_beside_and_inside :
    let files := ((FileSystem.empty.put [] ['h'] .folder).put [] ['p'] .folder).put [['p']]
      "A.java".toList (.file (Utf8.encode "/**@x-graph A*/class A\x7b\x7d".toList))
    let folder := Path.ofText ['/', 'p']
    let validateFrom := fun cwd entries =>
      (validate ⟨files, cwd⟩ ⟨folder, some folder, [], ['x']⟩ entries).outcome
    ∃ entries,
      (scan ⟨files, [['h']]⟩ folder ['x'] [] (some folder)).outcome = .ok entries ∧
      (scan ⟨files, [['p']]⟩ folder ['x'] [] (some folder)).outcome = .ok entries ∧
      (classGraphs entries).length = 1 ∧
      validateFrom [['h']] entries = validateFrom [['p']] entries := by
  intro files folder validateFrom
  let entries := scannedEntries ⟨files, [['h']]⟩ folder ['x'] [] (some folder)
  have hscan : (scan ⟨files, [['h']]⟩ folder ['x'] [] (some folder)).outcome = .ok entries :=
    @outcome_scan_ok _ ⟨files, [['h']]⟩ folder (some folder) [] ['x'] (by decide +kernel)
  have hgraphs : (classGraphs entries).length = 1 ∧ ∀ entry ∈ classGraphs entries,
      (⟨files, [['h']]⟩ : Disk).refusal? (Path.ofText entry.file) =
        (⟨files, [['p']]⟩ : Disk).refusal? (Path.ofText entry.file) ∧
      (⟨files, [['h']]⟩ : Disk).agreesBelow folder (Path.ofText entry.file) ∧
        (⟨files, [['p']]⟩ : Disk).agreesBelow folder (Path.ofText entry.file) := by
    decide +kernel
  obtain ⟨hsame, hvalidate⟩ := validate_scan_from_elsewhere files [['h']] [['p']] ['/', 'p']
    ['/', 'p'] [] [] ['x'] ['x'] (by decide) (by decide)
  exact ⟨entries, hscan, hsame.symm.trans hscan, hgraphs.1, hvalidate entries hscan hgraphs.2⟩

/-- A class of the same file name in the working directory is judged in place of the one that was
scanned. -/
theorem validate_differs_beside_namesake :
    let files := (((FileSystem.empty.put [] ['h'] .folder).put [['h']] "A.java".toList
      (.file (Utf8.encode "class A\x7b\x7d".toList))).put [] ['p'] .folder).put [['p']]
        "A.java".toList
        (.file (Utf8.encode "/**@x-graph A*/class A\x7bB b;\x7dclass B\x7b\x7d".toList))
    let folder := Path.ofText ['/', 'p']
    ∃ entries,
      (scan ⟨files, [['h']]⟩ folder ['x'] [] (some folder)).outcome = .ok entries ∧
      (scan ⟨files, [['p']]⟩ folder ['x'] [] (some folder)).outcome = .ok entries ∧
      (validate ⟨files, [['h']]⟩ ⟨folder, some folder, [], ['x']⟩ entries).outcome =
        .ok ⟨[], [], 1, 0⟩ ∧
      (validate ⟨files, [['p']]⟩ ⟨folder, some folder, [], ['x']⟩ entries).outcome =
        .ok ⟨(classGraphs entries).map fun entry => Report.undocumentedMessage ['x'] entry ['B'],
          [], 1, 0⟩ ∧
      (classGraphs entries).length = 1 := by
  intro files folder
  refine ⟨scannedEntries ⟨files, [['h']]⟩ folder ['x'] [] (some folder), ?_⟩
  decide +kernel

end DocGraph
