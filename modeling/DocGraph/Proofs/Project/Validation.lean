import DocGraph.Project.Report
import DocGraph.Proofs.Java.Outline
import DocGraph.Proofs.Project.Sources
import DocGraph.Proofs.Text.Order

/-!
# What a validation reports

Each graph is judged by itself: against the first declaration with the name of its class in the file
that its path resolves to. What it is charged with are two differences of sets, the first listed in
code point order and the second in the order of the documentation. The report puts these together in
the order of the graphs.

A validation reports on every list of entries, except where the listing of the source files is
refused or the path of a graph cannot be looked up. Then it ends with that error instead.
-/

namespace DocGraph

open Java (usedTypes)

section

variable [Java.SourceReader]

/-- The declaration that the graph of an entry is judged against. -/
def judgedType? (disk : Disk) (base : Option Path) (entry : Entry) : Option Java.Tree := do
  let file ← disk.resolved? base (Path.ofText entry.file)
  let source ← disk.sourceAt? file
  source.tree.root.findType? (unqualified entry.location)

/-- The names of the types below a folder, each once. -/
def indexBelow (disk : Disk) (folder : Path) (patterns : List Text) : List Text :=
  ((sourcesBelow disk folder patterns).map (·.tree.root.declaredTypeNames)).flatten.eraseDups

/-- What a comparison of three sets of names has to find: errors in strict code point order,
warnings in the order of the documentation. -/
structure Findings (used documented ignored errors warnings : List Text) : Prop where
  ascending : errors.Pairwise fun a b => Text.le b a = false
  mem_errors : ∀ name, name ∈ errors ↔ name ∈ used ∧ name ∉ documented ∧ name ∉ ignored
  as_documented : warnings.Sublist documented
  distinct : warnings.Nodup
  mem_warnings : ∀ name, name ∈ warnings ↔ name ∈ documented ∧ name ∉ used ∧ name ∉ ignored

/-- The graphs of classes among a list of entries. -/
def classGraphs (entries : List Entry) : List Entry := entries.filter (·.tagsClass .graph)

/-- What a report says of a list of entries, given the class index. -/
structure Accounts (disk : Disk) (base : Option Path) (tagPrefix : Text) (index : List Text)
    (entries : List Entry) (report : Report) : Prop where
  findings : ∃ errors warnings : Entry → List Text,
    (∀ entry ∈ classGraphs entries,
      match judgedType? disk base entry with
      | some declaration =>
        Findings (usedTypes declaration index)
          (documentedUses entry.content (unqualified entry.location))
          (ignoredNames (ignoreListAt entries entry.location)) (errors entry) (warnings entry)
      | none => errors entry = [] ∧ warnings entry = []) ∧
    report.errors = (classGraphs entries).flatMap (fun entry =>
      (errors entry).map (Report.undocumentedMessage tagPrefix entry)) ∧
    report.warnings = (classGraphs entries).flatMap (fun entry =>
      (warnings entry).map (Report.unusedMessage entry))
  checked : report.checked =
    (classGraphs entries).countP fun entry => (judgedType? disk base entry).isSome
  total : report.checked + report.skipped = (classGraphs entries).length

variable {disk : Disk} {base : Option Path} {entry : Entry} {ignoreList : Text}
variable {index : List Text}

/-! ## One graph -/

/-- The comparison of a graph with a declaration. -/
def comparisonWith (entry : Entry) (ignoreList : Text) (index : List Text)
    (declaration : Java.Tree) : Comparison :=
  ⟨Text.sort (usedTypes declaration index),
    documentedUses entry.content (unqualified entry.location), ignoredNames ignoreList⟩

namespace Check

/-- Whether there was a declaration to compare with. -/
def isCompared : Check → Bool
  | .skipped => false
  | .compared _ => true

omit [Java.SourceReader] in
@[simp] theorem isCompared_skipped : skipped.isCompared = false := rfl

omit [Java.SourceReader] in
@[simp] theorem isCompared_compared (comparison : Comparison) :
    (compared comparison).isCompared = true := rfl

/-- The names that a check finds to be errors. -/
def undocumented : Check → List Text
  | .skipped => []
  | .compared comparison => comparison.undocumented

/-- The names that a check finds to be worth a warning. -/
def unused : Check → List Text
  | .skipped => []
  | .compared comparison => comparison.unused

end Check

/-- What comes of checking a graph whose file can be looked for. -/
def judgement (disk : Disk) (base : Option Path) (index : List Text) (entry : Entry)
    (ignoreList : Text) : Check :=
  match judgedType? disk base entry with
  | some declaration => .compared (comparisonWith entry ignoreList index declaration)
  | none => .skipped

/-- The declaration depends on nothing but the content that is found. -/
theorem judgedType?_eq (disk : Disk) (base : Option Path) (entry : Entry) :
    judgedType? disk base entry =
      ((disk.resolved? base (Path.ofText entry.file)).bind disk.content?).bind fun content =>
        (Java.readSource (FileText.ofBytes content).text).root.findType?
          (unqualified entry.location) := by
  simp only [judgedType?, Disk.sourceAt?, Option.bind_eq_bind, Option.bind_assoc, Option.bind_map]
  rfl

theorem isCompared_judgement :
    (judgement disk base index entry ignoreList).isCompared =
      (judgedType? disk base entry).isSome := by
  rw [judgement]
  cases judgedType? disk base entry <;> rfl

theorem outcome_check_of_obstacle {error : FileError}
    (h : disk.obstacle? base (Path.ofText entry.file) = some error) :
    (check disk base index entry ignoreList).outcome = .error (.file error) := by
  simp [check, Disk.locate_of_obstacle h, Run.ofFiles]

theorem outcome_checkIn (file : Path) :
    (checkIn disk entry ignoreList index file).outcome =
      .ok (match (disk.sourceAt? file).bind
          (·.tree.root.findType? (unqualified entry.location)) with
        | some declaration => .compared (comparisonWith entry ignoreList index declaration)
        | none => .skipped) := by
  rw [checkIn, Disk.sourceAt?]
  cases hcontent : disk.content? file with
  | none =>
    obtain ⟨error, herror⟩ := Disk.exists_readSourceFile_error hcontent
    simp [herror]
  | some content =>
    simp only [Disk.readSourceFile_of_content hcontent, Option.map_some, Option.bind_some,
      Run.bind_eq, Run.pure_eq, Run.outcome_logs_andThen]
    cases (Disk.sourceOf file content).tree.root.findType? (unqualified entry.location) with
    | none => rfl
    | some declaration => rfl

theorem outcome_check (h : disk.obstacle? base (Path.ofText entry.file) = none) :
    (check disk base index entry ignoreList).outcome =
      .ok (judgement disk base index entry ignoreList) := by
  rw [check, Disk.locate_eq_resolved h, judgement, judgedType?]
  cases disk.resolved? base (Path.ofText entry.file) with
  | none => rfl
  | some file => exact outcome_checkIn file

omit [Java.SourceReader] in
/-- The two differences of a comparison are what has to be found. -/
theorem findings_comparisonWith (declaration : Java.Tree) :
    Findings (usedTypes declaration index)
      (documentedUses entry.content (unqualified entry.location)) (ignoredNames ignoreList)
      (comparisonWith entry ignoreList index declaration).undocumented
      (comparisonWith entry ignoreList index declaration).unused where
  ascending := (Text.sort_ascending (nodup_eraseDups _)).filter _
  mem_errors := by
    intro name
    simp [Comparison.undocumented, comparisonWith]
  as_documented := List.filter_sublist
  distinct := by
    have hdocumented : (documentedUses entry.content (unqualified entry.location)).Nodup := by
      rw [documentedUses]
      split
      · exact nodup_eraseDups _
      · exact List.nodup_nil
    exact hdocumented.filter _
  mem_warnings := by
    intro name
    simp [Comparison.unused, comparisonWith]

/-! ## All graphs -/

namespace Report

omit [Java.SourceReader] in
theorem ofAll_cons (report : Report) (rest : List Report) :
    ofAll (report :: rest) = report.append (ofAll rest) := rfl

omit [Java.SourceReader] in
theorem errors_ofAll (reports : List Report) : (ofAll reports).errors = reports.flatMap errors := by
  induction reports with
  | nil => rfl
  | cons report rest ih => rw [ofAll_cons, append, ih, List.flatMap_cons]

omit [Java.SourceReader] in
theorem warnings_ofAll (reports : List Report) :
    (ofAll reports).warnings = reports.flatMap warnings := by
  induction reports with
  | nil => rfl
  | cons report rest ih => rw [ofAll_cons, append, ih, List.flatMap_cons]

omit [Java.SourceReader] in
theorem errors_ofCheck (tagPrefix : Text) (entry : Entry) (check : Check) :
    (ofCheck tagPrefix entry check).errors =
      check.undocumented.map (undocumentedMessage tagPrefix entry) := by
  cases check <;> rfl

omit [Java.SourceReader] in
theorem warnings_ofCheck (tagPrefix : Text) (entry : Entry) (check : Check) :
    (ofCheck tagPrefix entry check).warnings = check.unused.map (unusedMessage entry) := by
  cases check <;> rfl

omit [Java.SourceReader] in
/-- Each graph is counted once, as checked or as skipped. -/
theorem counts_ofAll (graphs : List Entry) (tagPrefix : Text) (check : Entry → Check) :
    (ofAll (graphs.map fun entry => ofCheck tagPrefix entry (check entry))).checked =
        graphs.countP (fun entry => (check entry).isCompared) ∧
      (ofAll (graphs.map fun entry => ofCheck tagPrefix entry (check entry))).checked +
        (ofAll (graphs.map fun entry => ofCheck tagPrefix entry (check entry))).skipped =
          graphs.length := by
  induction graphs with
  | nil => exact ⟨rfl, rfl⟩
  | cons entry rest ih =>
    obtain ⟨hchecked, htotal⟩ := ih
    rw [List.map_cons, ofAll_cons, List.countP_cons, List.length_cons]
    -- `ofCheck` is only evaluated at the graph in front, the others are as in the hypotheses.
    cases check entry with
    | skipped =>
      have hreport : ofCheck tagPrefix entry .skipped = ⟨[], [], 0, 1⟩ := rfl
      simp only [append, hreport, Check.isCompared_skipped, Bool.false_eq_true, if_false]
      omega
    | compared comparison =>
      have hone : (ofCheck tagPrefix entry (.compared comparison)).checked = 1 := rfl
      have hzero : (ofCheck tagPrefix entry (.compared comparison)).skipped = 0 := rfl
      simp only [append, hone, hzero, Check.isCompared_compared, if_true]
      omega

end Report

/-- What a validation reports of a list of entries, given the class index. -/
def reportWith (disk : Disk) (base : Option Path) (tagPrefix : Text) (index : List Text)
    (entries : List Entry) : Report :=
  Report.ofAll ((classGraphs entries).map fun entry =>
    Report.ofCheck tagPrefix entry
      (judgement disk base index entry (ignoreListAt entries entry.location)))

theorem accounts_reportWith (disk : Disk) (base : Option Path) (tagPrefix : Text)
    (index : List Text) (entries : List Entry) :
    Accounts disk base tagPrefix index entries (reportWith disk base tagPrefix index entries) where
  findings := by
    let checkOf := fun entry =>
      judgement disk base index entry (ignoreListAt entries entry.location)
    refine ⟨fun entry => (checkOf entry).undocumented, fun entry => (checkOf entry).unused, ?_,
      ?_, ?_⟩
    · intro entry _
      simp only [checkOf, judgement]
      cases judgedType? disk base entry with
      | none => exact ⟨rfl, rfl⟩
      | some declaration => exact findings_comparisonWith declaration
    · simp only [reportWith, Report.errors_ofAll, List.flatMap_map, Report.errors_ofCheck, checkOf]
    · simp only [reportWith, Report.warnings_ofAll, List.flatMap_map, Report.warnings_ofCheck,
        checkOf]
  checked := by
    rw [reportWith, (Report.counts_ofAll _ _ _).1]
    simp only [isCompared_judgement]
  total := (Report.counts_ofAll _ _ _).2

variable {folder : Path} {patterns : List Text} {tagPrefix : Text} {entries : List Entry}

theorem outcome_reportOn (exclude : List ExclusionItem) (entry : Entry) :
    (reportOn disk ⟨folder, base, exclude, tagPrefix⟩ entries index entry).outcome =
      match (disk.obstacle? base (Path.ofText entry.file)).map Fault.file with
      | some fault => .error fault
      | none => .ok (Report.ofCheck tagPrefix entry
          (judgement disk base index entry (ignoreListAt entries entry.location))) := by
  rw [reportOn]
  simp only [Run.bind_eq, Run.pure_eq, Run.outcome_andThen]
  cases hobstacle : disk.obstacle? base (Path.ofText entry.file) with
  | some error =>
    rw [outcome_check_of_obstacle hobstacle]
    rfl
  | none =>
    rw [outcome_check hobstacle]
    rfl

/-- The reports on the graphs, unless one of their files cannot be looked for. -/
theorem outcome_reports (exclude : List ExclusionItem) (graphs : List Entry) :
    (Run.forEach graphs (reportOn disk ⟨folder, base, exclude, tagPrefix⟩ entries index)).outcome =
      match graphs.findSome? fun entry => disk.obstacle? base (Path.ofText entry.file) with
      | some error => .error (.file error)
      | none => .ok (graphs.map fun entry => Report.ofCheck tagPrefix entry
          (judgement disk base index entry (ignoreListAt entries entry.location))) := by
  rw [Run.outcome_forEach fun entry _ => outcome_reportOn exclude entry]
  have hmap : graphs.findSome? (fun entry =>
      (disk.obstacle? base (Path.ofText entry.file)).map Fault.file) =
        (graphs.findSome? fun entry => disk.obstacle? base (Path.ofText entry.file)).map
          Fault.file :=
    List.map_findSome?.symm
  rw [hmap]
  cases graphs.findSome? fun entry => disk.obstacle? base (Path.ofText entry.file) <;> rfl

theorem outcome_classIndex :
    (classIndex disk folder (patterns.map .pattern)).outcome =
      match sourceRefusal? disk folder with
      | some error => .error (.file error)
      | none => .ok (indexBelow disk folder patterns) := by
  simp only [classIndex, Run.bind_eq, Run.pure_eq, Run.outcome_andThen, outcome_visitSources]
  cases sourceRefusal? disk folder <;> rfl

theorem index_of_outcome_classIndex
    (h : (classIndex disk folder (patterns.map .pattern)).outcome = .ok index) :
    index = indexBelow disk folder patterns := by
  rw [outcome_classIndex] at h
  cases hrefusal : sourceRefusal? disk folder with
  | some error =>
    rw [hrefusal] at h
    cases h
  | none =>
    rw [hrefusal] at h
    exact (Except.ok.inj h).symm

/-- The error that ends a validation: of the listing of the source files, else the first one among
the graphs. Without graphs nothing is looked up. -/
def validationRefusal? (disk : Disk) (folder : Path) (base : Option Path) (graphs : List Entry) :
    Option FileError :=
  if graphs.isEmpty then none
  else
    match sourceRefusal? disk folder with
    | some error => some error
    | none => graphs.findSome? fun entry => disk.obstacle? base (Path.ofText entry.file)

omit [Java.SourceReader] in
theorem validationRefusal?_eq_none_iff {graphs : List Entry} (hgraphs : graphs ≠ []) :
    validationRefusal? disk folder base graphs = none ↔ sourceRefusal? disk folder = none ∧
      ∀ entry ∈ graphs, disk.obstacle? base (Path.ofText entry.file) = none := by
  rw [validationRefusal?, if_neg (by simpa using hgraphs), ← List.findSome?_eq_none_iff]
  cases sourceRefusal? disk folder <;> simp

omit [Java.SourceReader] in
theorem obstacle?_of_validationRefusal? {graphs : List Entry}
    (h : validationRefusal? disk folder base graphs = none) (hentry : entry ∈ graphs) :
    disk.obstacle? base (Path.ofText entry.file) = none :=
  ((validationRefusal?_eq_none_iff (List.ne_nil_of_mem hentry)).1 h).2 entry hentry

/-- A validation gives the report on all graphs, unless it is refused. -/
theorem outcome_validate :
    (validate disk ⟨folder, base, patterns.map .pattern, tagPrefix⟩ entries).outcome =
      match validationRefusal? disk folder base (classGraphs entries) with
      | some error => .error (.file error)
      | none => .ok (reportWith disk base tagPrefix (indexBelow disk folder patterns) entries) := by
  have hgraphs : entries.filter (·.tagsClass .graph) = classGraphs entries := rfl
  rw [validate, validationRefusal?, hgraphs]
  cases hempty : (classGraphs entries).isEmpty with
  | true =>
    simp only [if_true, reportWith, List.isEmpty_iff.1 hempty]
    rfl
  | false =>
    simp only [Bool.false_eq_true, if_false, Run.bind_eq, Run.pure_eq, Run.outcome_andThen,
      outcome_classIndex]
    cases sourceRefusal? disk folder with
    | some error => rfl
    | none =>
      simp only [Except.bind, outcome_reports]
      cases (classGraphs entries).findSome? fun entry =>
          disk.obstacle? base (Path.ofText entry.file) with
      | some error => rfl
      | none => rfl

theorem outcome_enforce (settings : ValidationSettings) (entries : List Entry) :
    (enforce disk settings entries).outcome =
      (validate disk settings entries).outcome.bind fun report =>
        if report.errors = [] then .ok report else .error (.undocumentedUses report.errors) := by
  simp only [enforce, Run.bind_eq, Run.pure_eq, Run.outcome_andThen]
  congr 1
  funext report
  by_cases hpassed : report.errors = []
  · simp [Report.passed, hpassed]
  · simp [Report.passed, hpassed]

/-! ## The validation as a whole -/

/-- A validation reports on every list of entries with a graph, unless it is refused. Without a
graph, its report is empty whatever the files. -/
theorem validate_accounts (disk : Disk) (folder : Path) (base : Option Path) (patterns : List Text)
    (tagPrefix : Text) (entries : List Entry) :
    let settings : ValidationSettings := ⟨folder, base, patterns.map .pattern, tagPrefix⟩
    (classGraphs entries = [] → (validate disk settings entries).outcome = .ok .empty) ∧
    (∀ error, validationRefusal? disk folder base (classGraphs entries) = some error →
      (validate disk settings entries).outcome = .error (.file error)) ∧
    (classGraphs entries ≠ [] → validationRefusal? disk folder base (classGraphs entries) = none →
      ∃ index report,
        (classIndex disk folder settings.exclude).outcome = .ok index ∧
        index = indexBelow disk folder patterns ∧
        (validate disk settings entries).outcome = .ok report ∧
        Accounts disk base tagPrefix index entries report) ∧
    (enforce disk settings entries).outcome =
      (validate disk settings entries).outcome.bind fun report =>
        if report.errors = [] then .ok report else .error (.undocumentedUses report.errors) := by
  intro settings
  refine ⟨?_, ?_, ?_, outcome_enforce settings entries⟩
  · intro hgraphs
    have hempty : entries.filter (·.tagsClass .graph) = [] := hgraphs
    simp [validate, hempty]
  · intro error hrefused
    rw [outcome_validate, hrefused]
  · intro hgraphs hrefused
    have hlisting := ((validationRefusal?_eq_none_iff hgraphs).1 hrefused).1
    refine ⟨_, _, by rw [outcome_classIndex, hlisting], rfl, ?_,
      accounts_reportWith disk base tagPrefix _ entries⟩
    rw [outcome_validate, hrefused]

end

/-- The only graph here has its file below the base folder, where it is checked. -/
theorem validate_accounts_of_found_graph :
    let files := ((FileSystem.empty.put [] "p".toList .folder).put ["p".toList] "A.java".toList
      (.file (Utf8.encode "class A \x7b B b; \x7d class B \x7b\x7d".toList)))
    let entry : Entry :=
      ⟨"A".toList, "A.java".toList, 1, .architectural, TagType.graph.name, [], none⟩
    let folder : Path := ⟨.root, ["p".toList]⟩
    validationRefusal? ⟨files, []⟩ folder (some folder) (classGraphs [entry]) = none ∧
      ∃ report, (validate ⟨files, []⟩ ⟨folder, some folder, [], defaultTagPrefix⟩ [entry]).outcome =
          .ok report ∧
        Accounts ⟨files, []⟩ (some folder) defaultTagPrefix ["A".toList, "B".toList] [entry]
          report := by
  intro files entry folder
  have hrefused : validationRefusal? ⟨files, []⟩ folder (some folder) (classGraphs [entry]) =
      none := by
    decide +kernel
  obtain ⟨index, report, -, hindex, hreport, haccounts⟩ :=
    (validate_accounts ⟨files, []⟩ folder (some folder) [] defaultTagPrefix [entry]).2.2.1
      (by decide) hrefused
  have hnames : indexBelow ⟨files, []⟩ folder [] = ["A".toList, "B".toList] := by decide +kernel
  rw [hindex, hnames] at haccounts
  exact ⟨hrefused, report, hreport, haccounts⟩

/-- No file can have a name of 256 bytes, and yet a graph with this path is not passed over. -/
theorem no_report_on_long_name :
    let entry : Entry :=
      ⟨"A".toList, List.replicate 256 'a', 1, .architectural, TagType.graph.name, "A".toList, none⟩
    let folder : Path := ⟨.root, ["p".toList]⟩
    judgedType? ⟨.empty, []⟩ none entry = none ∧
      ¬ ∃ report, (validate ⟨.empty, []⟩ ⟨folder, none, [], defaultTagPrefix⟩ [entry]).outcome =
        .ok report := by
  intro entry folder
  have hrefused : validationRefusal? ⟨.empty, []⟩ folder none (classGraphs [entry]) =
      some ⟨.nameTooLong, Path.ofText entry.file⟩ := by
    decide +kernel
  have houtcome := @outcome_validate _ ⟨.empty, []⟩ none folder [] defaultTagPrefix [entry]
  rw [hrefused] at houtcome
  refine ⟨by decide +kernel, ?_⟩
  rintro ⟨report, hreport⟩
  cases hreport.symm.trans houtcome

end DocGraph
