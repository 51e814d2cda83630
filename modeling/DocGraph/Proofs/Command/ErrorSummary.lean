import DocGraph.Proofs.Command.Failure
import DocGraph.Proofs.Console.Pictures
import DocGraph.Proofs.Project.Validation

/-!
# The summary of a failed validation

A validation that finds a type in use without documentation ends the command as failed. Its summary
is one text, with the errors of the report one below the other, an empty line and a message. The
screen reads it line by line, so no error changes how another one is shown.

An error is shown as it is exactly if the screen has nothing to change in it. The place of a graph
puts the number of a line between two colons: where that number is the name of a picture, the
picture is shown and the place is lost.
-/

namespace DocGraph

open Screen (IsVerbatim Pictures pictureOf? printed stack)

/-- What the command that validates a project has at hand when it reports. -/
structure Inspection where
  loader : Loader
  exclude : List ExclusionItem
  entries : List Entry
  report : Report

/-- How the sources of a project folder are validated, where another folder may be asked for. -/
def Inspection.validation (found : Inspection) (root : Path) (asked : Option Path) :
    ValidationSettings :=
  ⟨projectFolder root asked found.loader.settings.sourceFolder, some root, found.exclude,
    found.loader.settings.tagPrefix⟩

/-- Whether a validation of a project folder comes to a report. -/
structure Inspects [Java.SourceReader] [Yaml.Format] (environment : Environment) (disk : Disk) (root : Path)
    (config asked : Option Path) (found : Inspection) : Prop where
  loaded : (Loader.start disk environment (config.map (·.text)) (some root)).outcome =
    .ok found.loader
  enabled : found.loader.settings.validates = true
  isFolder : disk.isFolder (found.validation root asked).folder = .ok true
  excluded : found.loader.settings.exclusions.outcome = .ok found.exclude
  scanned : (scan disk (found.validation root asked).folder found.loader.settings.tagPrefix
    found.exclude (some root)).outcome = .ok found.entries
  validated : (validate disk (found.validation root asked) found.entries).outcome = .ok found.report

/-- The lines above the errors in their summary. -/
def errorsOpening : Text := stack [[], ruler ++ ' ' :: "Error Summary".toList ++ ' ' :: ruler, []]

/-- The lines below the errors in their summary. -/
def errorsClosing : Text := stack [[], ruler, []]

variable {disk : Disk} {environment : Environment}

/-! ## Effects of activities -/

/-- What an outcome leaves besides its log. -/
def Outcome.effect {α : Type} (outcome : Outcome α) : Disk × Text × Except Ending α :=
  (outcome.disk, outcome.output, outcome.result)

namespace Activity

variable {α β : Type} {first : Activity α} {a : α}

theorem effect_ofRun {run : Disk → Run α} (h : (run disk).outcome = .ok a) :
    (ofRun run disk).effect = (disk, [], .ok a) := by
  simp [ofRun, ofDiskRun, DiskRun.reading, Outcome.effect, h, Except.mapError]

/-- Behind an activity that has no effect, the next one starts on the same disk. -/
theorem effect_andThen (next : α → Activity β) (h : (first disk).effect = (disk, [], .ok a)) :
    (first.andThen next disk).effect = (next a disk).effect := by
  simp only [Outcome.effect, Prod.mk.injEq] at h
  obtain ⟨hdisk, houtput, hresult⟩ := h
  simp [andThen, Outcome.andThen, Outcome.followedBy, Outcome.effect, hdisk, houtput, hresult]

theorem effect_andThen_of_ending {after : Disk} {output : Text} {ending : Ending}
    (next : α → Activity β) (h : (first disk).effect = (after, output, .error ending)) :
    (first.andThen next disk).effect = (after, output, .error ending) := by
  simp only [Outcome.effect, Prod.mk.injEq] at h
  obtain ⟨hdisk, houtput, hresult⟩ := h
  simp [andThen, Outcome.andThen, Outcome.effect, hdisk, houtput, hresult]

theorem rescue_of_ok {handle : Fault → Option (Activity α)} (h : (first disk).result = .ok a) :
    first.rescue handle disk = first disk := by
  simp [rescue, h]

theorem effect_ofRun_of_fault {run : Disk → Run α} {fault : Fault}
    (h : (run disk).outcome = .error fault) :
    (ofRun run disk).effect = (disk, [], .error (.fault fault)) := by
  simp [ofRun, ofDiskRun, DiskRun.reading, Outcome.effect, h, Except.mapError]

theorem effect_rescue_of_fault {handle : Fault → Option (Activity α)} {fault : Fault}
    {other : Activity α} (h : (first disk).effect = (disk, [], .error (.fault fault)))
    (hother : handle fault = some other) :
    (first.rescue handle disk).effect = (other disk).effect := by
  simp only [Outcome.effect, Prod.mk.injEq] at h
  obtain ⟨hdisk, houtput, hresult⟩ := h
  simp [rescue, Outcome.followedBy, Outcome.effect, hdisk, houtput, hresult, hother]

end Activity

/-- What stands between the colons of a place are signs and digits, clear and not blank. -/
theorem clear_of_mem_writeInteger {c : Char} {n : Int} (h : c ∈ writeInteger n) :
    Screen.isClear c = true ∧ isBlank c = false := by
  have hdigit : ∀ c ∈ writeNatural n.natAbs, Screen.isClear c = true ∧ isBlank c = false := by
    intro c hc
    have hc : c.isDigit = true := Nat.isDigit_of_mem_toDigits (by decide) (by decide) hc
    have hrange : 48 ≤ c.toNat ∧ c.toNat ≤ 57 := Char.isDigit_iff_toNat.1 hc
    have hall : ∀ digit < 10, Screen.isClear (Char.ofNat (48 + digit)) = true ∧
        isBlank (Char.ofNat (48 + digit)) = false := by decide
    have hthis := hall (c.toNat - 48) (by omega)
    rwa [Nat.add_sub_cancel' hrange.1, Char.ofNat_toNat] at hthis
  unfold writeInteger at h
  split at h
  · rcases List.mem_cons.1 h with rfl | h
    · decide
    · exact hdigit c h
  · exact hdigit c h

section

variable [Pictures]

/-! ## The summary -/

/-- A summary around its message. -/
theorem stack_summaryLines (title message : Text) :
    stack (summaryLines title message) =
      stack [[], ruler ++ ' ' :: title ++ ' ' :: ruler, []] ++ printed message ++
        stack [[], ruler, []] := by
  simp only [summaryLines, stack, printed, List.flatMap_append]

/-- The screen has nothing to change in the message behind the errors. -/
theorem isVerbatim_failureMessage : IsVerbatim Report.failureMessage := by
  obtain ⟨hcodes, hstill⟩ : Screen.codes Report.failureMessage = [] ∧
      (Report.failureMessage.all fun c => c != '\t' && !Screen.movesCursor c) = true := by
    decide +kernel
  simp only [List.all_eq_true, Bool.and_eq_true, bne_iff_ne, Bool.not_eq_true'] at hstill
  exact ⟨by simp [hcodes], fun h => (hstill _ h).1 rfl, fun c h => (hstill c h).2⟩

theorem printed_errorsMessage (errors : List Text) :
    printed (errorsMessage errors) =
      errors.flatMap printed ++ '\n' :: Report.failureMessage ++ ['\n'] := by
  have hne : errors ++ [[], Report.failureMessage] ≠ [] := by simp
  have hempty : printed [] = ['\n'] := rfl
  rw [errorsMessage, Screen.printed_join hne, List.flatMap_append, List.flatMap_cons,
    List.flatMap_singleton, hempty, Screen.printed_eq_iff.2 isVerbatim_failureMessage]
  simp

theorem isVerbatim_errorsMessage (errors : List Text) :
    IsVerbatim (errorsMessage errors) ↔ ∀ error ∈ errors, IsVerbatim error := by
  have hne : errors ++ [[], Report.failureMessage] ≠ [] := by simp
  have hempty : IsVerbatim [] := Screen.printed_eq_iff.1 rfl
  rw [errorsMessage, Screen.isVerbatim_join hne, List.forall_mem_append]
  simp [hempty, isVerbatim_failureMessage]

/-! ## The place of an error -/

/-- An error of a project with clear names is shown as it is unless a picture is named like the line
that it points to. -/
theorem isVerbatim_undocumentedMessage_iff {tagPrefix name : Text} {entry : Entry}
    (hclear : ∀ c ∈ entry.file ++ tagPrefix ++ name, Screen.isClear c = true) :
    IsVerbatim (Report.undocumentedMessage tagPrefix entry name) ↔
      pictureOf? (writeInteger entry.line) = none := by
  let rest : Text := Text.phrase [" Class dependency '", name, "' found but not in graph. Add to ",
    tagText tagPrefix TagType.graph.name, " or ", tagText tagPrefix TagType.graphIgnore.name, "."]
  have hmessage : Report.undocumentedMessage tagPrefix entry name =
      entry.file ++ ':' :: (writeInteger entry.line ++ ':' :: rest) := by
    simp only [Report.undocumentedMessage, Report.place, Text.phrase, List.flatten_cons,
      List.append_assoc, List.cons_append]
    rfl
  simp only [List.forall_mem_append] at hclear
  obtain ⟨⟨hfile, hprefix⟩, hname⟩ := hclear
  have htag : ∀ type : TagType, ∀ c ∈ tagText tagPrefix type.name, Screen.isClear c = true := by
    intro type
    rw [tagText, tagMarker, List.cons_append, List.forall_mem_append, List.forall_mem_cons,
      List.forall_mem_append]
    have hname : type.name.all Screen.isClear = true := by cases type <;> decide
    exact ⟨⟨by decide, hprefix, List.forall_mem_singleton.2 (by decide)⟩, List.all_eq_true.1 hname⟩
  have hrest : ∀ c ∈ rest, Screen.isClear c = true := by
    simp only [rest, Text.phrase, List.flatten_cons, List.flatten_nil, List.append_nil,
      List.forall_mem_append]
    exact ⟨List.all_eq_true.1 (by decide), hname, List.all_eq_true.1 (by decide), htag .graph,
      List.all_eq_true.1 (by decide), htag .graphIgnore, List.all_eq_true.1 (by decide)⟩
  rw [hmessage]
  exact Screen.isVerbatim_around_iff hfile (fun c hc => clear_of_mem_writeInteger hc) hrest

/-! ## Failed validations -/

theorem effect_failWith {α : Type} (message : Text) (disk : Disk) :
    (Activity.failWith message disk : Outcome α).effect =
      (disk, stack (summaryLines "Error Summary" message), .error (.exit 1)) := by
  simp [Activity.failWith, Activity.summarise, Activity.print, Activity.stop, Activity.andThen,
    Outcome.andThen, Outcome.followedBy, Outcome.effect]

variable [Java.SourceReader] [Yaml.Format]

omit [Java.SourceReader] in
theorem effect_projectSettings {root : Path} {config : Option Path} {loader : Loader}
    (h : (Loader.start disk environment (config.map (·.text)) (some root)).outcome = .ok loader) :
    (projectSettings environment root config disk).effect = (disk, [], .ok loader.settings) := by
  have hload : (Activity.ofRun (fun disk =>
      Loader.start disk environment (config.map (·.text)) (some root)) disk).effect =
      (disk, [], .ok loader) := Activity.effect_ofRun h
  have hloading := Activity.effect_andThen (fun loader => .done loader.settings) hload
  unfold projectSettings
  rw [Activity.rescue_of_ok (congrArg (·.2.2) hloading), hloading]
  rfl

/-- A report with errors ends the command with their summary. -/
theorem effect_validateSources {root : Path} {asked : Option Path} {config : Option Path}
    {found : Inspection} (h : Inspects environment disk root config asked found)
    (herrors : found.report.errors ≠ []) :
    (validateSources root (found.validation root asked).folder found.loader.settings disk).effect =
      (disk, stack (summaryLines "Error Summary" (errorsMessage found.report.errors)),
        .error (.exit 1)) := by
  have henforce : (enforce disk (found.validation root asked) found.entries).outcome =
      .error (.undocumentedUses found.report.errors) := by
    rw [outcome_enforce, h.validated]
    exact if_neg herrors
  have hexclude : (Activity.ofRun (fun _ => found.loader.settings.exclusions) disk).effect =
      (disk, [], .ok found.exclude) := Activity.effect_ofRun h.excluded
  have hscan : (Activity.ofRun (fun disk => scan disk (found.validation root asked).folder
      found.loader.settings.tagPrefix found.exclude (some root)) disk).effect =
      (disk, [], .ok found.entries) := Activity.effect_ofRun h.scanned
  have hreport : (Activity.report [.validating (found.validation root asked).folder
      found.loader.settings.tagPrefix] disk).effect = (disk, [], .ok ()) := rfl
  unfold validateSources
  simp only [Activity.bind_eq]
  rw [Activity.effect_andThen _ hexclude, Activity.effect_andThen _ hreport,
    Activity.effect_andThen _ hscan]
  refine Activity.effect_andThen_of_ending _ ?_
  rw [Activity.effect_rescue_of_fault (Activity.effect_ofRun_of_fault henforce) rfl]
  exact effect_failWith _ disk

theorem effect_validateProject {folder : Path} {config asked : Option Path} {found : Inspection}
    (h : Inspects environment disk (folder.resolve disk.cwd) config asked found)
    (herrors : found.report.errors ≠ []) :
    (validateProject environment folder config asked disk).effect =
      (disk, stack (summaryLines "Error Summary" (errorsMessage found.report.errors)),
        .error (.exit 1)) := by
  have hfolder : (Activity.ofRun (fun disk => Run.ofFiles (disk.isFolder
      (found.validation (folder.resolve disk.cwd) asked).folder)) disk).effect =
      (disk, [], .ok true) := by
    refine Activity.effect_ofRun ?_
    rw [h.isFolder]
    rfl
  unfold validateProject
  simp only [Activity.bind_eq, disk_andThen]
  rw [Activity.effect_andThen _ (effect_projectSettings h.loaded), if_pos h.enabled]
  refine (Activity.effect_andThen _ hfolder).trans ?_
  rw [if_pos rfl]
  exact effect_validateSources h herrors

/-- The run of a validation that finds errors, up to what is shown of each. -/
theorem run_of_inspects {arguments : List Text} {folder : Path} {config asked : Option Path}
    {verbose : Bool} {found : Inspection}
    (hinvoked :
      Invocation.ofArguments disk arguments = .run (.validate folder config asked) verbose)
    (hfound : Inspects environment disk (folder.resolve disk.cwd) config asked found)
    (herrors : found.report.errors ≠ []) :
    let run := runCommand environment arguments disk
    run.ending = .exit 1 ∧ run.disk = disk ∧
      run.output =
        errorsOpening ++ printed (errorsMessage found.report.errors) ++ errorsClosing := by
  intro run
  have heffect := effect_validateProject hfound herrors
  simp only [Outcome.effect, Prod.mk.injEq] at heffect
  obtain ⟨hdisk, houtput, hresult⟩ := heffect
  have hrun : run = .ofOutcome verbose (validateProject environment folder config asked disk) := by
    simp only [run, runCommand, hinvoked]
    rfl
  rw [hrun]
  refine ⟨?_, hdisk, houtput.trans (stack_summaryLines _ _)⟩
  simp only [CommandRun.ofOutcome, hresult]

/-- A validation that finds errors changes nothing and fails with a summary of them, in the order of
the report and each as it is printed by itself. The summary has them as they are exactly if the
screen has nothing to change in any of them: in clear text, if no picture is named like a line that
is pointed to. -/
theorem failed_validation_summary (environment : Environment) (disk : Disk) (arguments : List Text)
    (folder : Path) (config asked : Option Path) (verbose : Bool) (found : Inspection)
    (hinvoked :
      Invocation.ofArguments disk arguments = .run (.validate folder config asked) verbose)
    (hfound : Inspects environment disk (folder.resolve disk.cwd) config asked found)
    (herrors : found.report.errors ≠ []) :
    let run := runCommand environment arguments disk
    let errors := found.report.errors
    run.ending = .exit 1 ∧ run.disk = disk ∧
      run.output = errorsOpening ++
        (errors.flatMap printed ++ '\n' :: Report.failureMessage ++ ['\n']) ++ errorsClosing ∧
      (run.output = errorsOpening ++ (errorsMessage errors ++ ['\n']) ++ errorsClosing ↔
        ∀ error ∈ errors, IsVerbatim error) ∧
      ∀ entry name, (∀ c ∈ entry.file ++ found.loader.settings.tagPrefix ++ name,
          Screen.isClear c = true) →
        (IsVerbatim (Report.undocumentedMessage found.loader.settings.tagPrefix entry name) ↔
          pictureOf? (writeInteger entry.line) = none) := by
  intro run errors
  obtain ⟨hending, hdisk, houtput⟩ := run_of_inspects hinvoked hfound herrors
  refine ⟨hending, hdisk, ?_, ?_,
    fun entry name hclear => isVerbatim_undocumentedMessage_iff hclear⟩
  · rw [houtput, printed_errorsMessage]
  · rw [houtput, List.append_left_inj, List.append_right_inj, Screen.printed_eq_iff,
      isVerbatim_errorsMessage]

end

/-- A validation is known by what it reads of the settings, though settings cannot be compared. -/
theorem exists_inspects {root folder : Path} {config asked : Option Path}
    {exclude : List ExclusionItem} {tagPrefix : Text} {entries : List Entry} {report : Report}
    (hstart : (match (Loader.start disk environment (config.map (·.text)) (some root)).outcome with
      | .ok loader => loader.settings.validates &&
        projectFolder root asked loader.settings.sourceFolder == folder &&
        loader.settings.exclusions.outcome == .ok exclude && loader.settings.tagPrefix == tagPrefix
      | .error _ => false) = true)
    (hfolder : disk.isFolder folder = .ok true)
    (hscan : (scan disk folder tagPrefix exclude (some root)).outcome = .ok entries)
    (hvalidate : (validate disk ⟨folder, some root, exclude, tagPrefix⟩ entries).outcome =
      .ok report) :
    ∃ loader, Inspects environment disk root config asked ⟨loader, exclude, entries, report⟩ := by
  cases hload : (Loader.start disk environment (config.map (·.text)) (some root)).outcome with
  | error fault =>
    rw [hload] at hstart
    cases hstart
  | ok loader =>
    simp only [hload, Bool.and_eq_true, beq_iff_eq] at hstart
    obtain ⟨⟨⟨hvalidates, rfl⟩, hexclude⟩, rfl⟩ := hstart
    exact ⟨loader, hload, hvalidates, hfolder, hexclude, hscan, hvalidate⟩

/-- An error in the second line is shown as it is. -/
theorem failed_validation_summary_of_second_line :
    let content := "/** @aicontext-graph A */\nclass A \x7b B b; \x7d\nclass B \x7b\x7d\n".toList
    let disk : Disk := ⟨(FileSystem.empty.put [] "p".toList .folder).put ["p".toList]
      "A.java".toList (.file (Utf8.encode content)), ["p".toList]⟩
    let environment : Environment := ⟨[("HOME".toList, "/u".toList)], Path.ofText "/u".toList⟩
    let arguments : List Text := ["validate".toList, ['.'], "--source-dir".toList, ['.']]
    let root : Path := ⟨.root, ["p".toList]⟩
    let error := Text.phrase ["A.java:2: Class dependency 'B' found but not in graph. ",
      "Add to @aicontext-graph or @aicontext-graph-ignore."]
    let run := runCommand environment arguments disk
    (∃ found, Inspects environment disk root none (some (Path.ofText ['.'])) found ∧
      found.report.errors = [error]) ∧
      run.ending = .exit 1 ∧ run.disk = disk ∧
      run.output = errorsOpening ++ (errorsMessage [error] ++ ['\n']) ++ errorsClosing := by
  intro content disk environment arguments root error run
  let here : Path := Path.ofText ['.']
  let entry : Entry := ⟨['A'], "A.java".toList, 2, .architectural, "graph", ['A'], none⟩
  have hinvoked : Invocation.ofArguments disk arguments =
      .run (.validate here none (some here)) false := by
    decide +kernel
  obtain ⟨hscan, hvalidate⟩ :
      (scan disk root "aicontext" [] (some root)).outcome = .ok [entry] ∧
      (validate disk ⟨root, some root, [], "aicontext"⟩ [entry]).outcome =
        .ok ⟨[error], [], 1, 0⟩ := by
    decide +kernel
  obtain ⟨loader, hfound⟩ := @exists_inspects disk environment root root none (some here) [] _ _ _
    (by decide +kernel) (by decide +kernel) hscan hvalidate
  obtain ⟨hending, hdisk, -, hverbatim, -⟩ :=
    failed_validation_summary environment disk arguments here none (some here) false _ hinvoked
      hfound (List.cons_ne_nil error [])
  refine ⟨⟨_, hfound, rfl⟩, hending, hdisk, hverbatim.2 ?_⟩
  rw [List.forall_mem_singleton]
  exact Screen.printed_eq_iff.1 (by decide +kernel)

/-- An error in line 100 is nowhere in the summary: its place is shown as a picture. -/
theorem no_verbatim_summary_of_line_100 :
    let content := List.replicate 98 '\n' ++
      "/** @aicontext-graph A */\nclass A \x7b B b; \x7d\nclass B \x7b\x7d\n".toList
    let disk : Disk := ⟨(FileSystem.empty.put [] "p".toList .folder).put ["p".toList]
      "A.java".toList (.file (Utf8.encode content)), ["p".toList]⟩
    let environment : Environment := ⟨[("HOME".toList, "/u".toList)], Path.ofText "/u".toList⟩
    let arguments : List Text := ["validate".toList, ['.'], "--source-dir".toList, ['.']]
    let root : Path := ⟨.root, ["p".toList]⟩
    let error := Text.phrase ["A.java:100: Class dependency 'B' found but not in graph. ",
      "Add to @aicontext-graph or @aicontext-graph-ignore."]
    let run := runCommand environment arguments disk
    (∃ found, Inspects environment disk root none (some (Path.ofText ['.'])) found ∧
      found.report.errors = [error]) ∧
      Invocation.ofArguments disk arguments =
        .run (.validate (Path.ofText ['.']) none (some (Path.ofText ['.']))) false ∧
      ¬ error <:+: run.output := by
  intro content disk environment arguments root error run
  have hinvoked : Invocation.ofArguments disk arguments =
      .run (.validate (Path.ofText ['.']) none (some (Path.ofText ['.']))) false := by
    decide +kernel
  let entry : Entry := ⟨['A'], "A.java".toList, 100, .architectural, "graph", ['A'], none⟩
  obtain ⟨hscan, hvalidate⟩ :
      (scan disk root "aicontext" [] (some root)).outcome = .ok [entry] ∧
      (validate disk ⟨root, some root, [], "aicontext"⟩ [entry]).outcome =
        .ok ⟨[error], [], 1, 0⟩ := by
    decide +kernel
  obtain ⟨loader, hfound⟩ := @exists_inspects disk environment root root none
    (some (Path.ofText ['.'])) [] _ _ _ (by decide +kernel) (by decide +kernel) hscan hvalidate
  have houtput := (run_of_inspects hinvoked hfound (List.cons_ne_nil error [])).2.2
  have hmissing :
      ¬ error <:+: errorsOpening ++ printed (errorsMessage [error]) ++ errorsClosing := by
    decide +kernel
  refine ⟨⟨_, hfound, rfl⟩, hinvoked, ?_⟩
  rw [houtput]
  exact hmissing

end DocGraph
