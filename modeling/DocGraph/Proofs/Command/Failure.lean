import DocGraph.Command.Run
import DocGraph.Proofs.Config.InPlace

/-!
# Commands without settings

A command that works on a project loads its settings before anything else. If that fails with a
message about the configuration, the command shows the message as a summary and exits with a code of
its own. Every other fault ends the command as it is, with nothing shown.

Which of the two it is depends on the file alone, so the one is told from the other by what stands
in it.
-/

namespace DocGraph

variable {disk : Disk} {environment : Environment} {fault : Fault}

namespace Command

/-- The folder and the file of settings that a command is asked to use, if it loads settings. -/
def project? : Command → Option (Path × Option Path)
  | validate folder config _ => some (folder, config)
  | suggest folder config _ _ => some (folder, config)
  | display _ _ _ => none
  | initialise _ _ => none

end Command

/-! ## Commands without settings -/

theorem disk_andThen {α : Type} (next : Disk → Activity α) :
    Activity.disk.andThen next disk = next disk disk := by
  simp [Activity.disk, Activity.andThen, Outcome.andThen, Outcome.followedBy]

section

variable [Screen.Pictures]

/-- What is left of a command whose settings could not be loaded. -/
def withoutSettings {α : Type} (disk : Disk) (log : List Event) : Fault → Outcome α
  | .badConfiguration message =>
    ⟨disk, log, Screen.stack (summaryLines "Error Summary" message), .error (.exit 1)⟩
  | fault => ⟨disk, log, [], .error (.fault fault)⟩

/-- Nothing is done behind an activity that ended the command. -/
theorem andThen_of_withoutSettings {α β : Type} {activity : Activity α} {log : List Event}
    (next : α → Activity β) (h : activity disk = withoutSettings disk log fault) :
    activity.andThen next disk = withoutSettings disk log fault := by
  rw [Activity.andThen, h]
  cases fault <;> rfl

/-! ## Loaders -/

variable [Yaml.Format]

omit [Screen.Pictures] in
theorem Loader.start_fault {asked : Option Text} {root file : Option Path}
    (hchosen : (chooseFile disk environment asked root).outcome = .ok file)
    (h : (Loader.start disk environment asked root).outcome = .error fault) :
    (loadSettings disk environment file).outcome = .error fault := by
  rcases Run.outcome_andThen_eq_error_iff.1 h with hchoice | ⟨found, hfound, h⟩
  · cases hchosen.symm.trans hchoice
  · cases hchosen.symm.trans hfound
    rcases Run.outcome_andThen_eq_error_iff.1 h with hload | ⟨settings, -, h⟩
    · exact hload
    · cases h

/-! ## Commands -/

theorem projectSettings_of_fault {root : Path} {config : Option Path}
    (h : (Loader.start disk environment (config.map (·.text)) (some root)).outcome = .error fault) :
    projectSettings environment root config disk = withoutSettings disk
      (Loader.start disk environment (config.map (·.text)) (some root)).log fault := by
  have hloading : (Activity.ofRun fun disk =>
      Loader.start disk environment (config.map (·.text)) (some root)) disk =
      ⟨disk, (Loader.start disk environment (config.map (·.text)) (some root)).log, [],
        .error (.fault fault)⟩ := by
    simp [Activity.ofRun, Activity.ofDiskRun, DiskRun.reading, h, Except.mapError]
  unfold projectSettings Activity.rescue
  simp only [Activity.andThen, hloading, Outcome.andThen]
  cases fault with
  | badConfiguration message =>
    simp [withoutSettings, Outcome.followedBy, Activity.failWith, Activity.summarise,
      Activity.print, Activity.stop, Activity.andThen, Outcome.andThen]
  | _ => rfl

variable [Java.SourceReader]

/-- Settings are the first thing that a command on a project asks for. -/
theorem activity_of_fault {command : Command} {folder : Path} {config : Option Path}
    (hproject : command.project? = some (folder, config))
    (h : (Loader.start disk environment (config.map (·.text))
      (some (folder.resolve disk.cwd))).outcome = .error fault) :
    command.activity environment disk = withoutSettings disk
      (Loader.start disk environment (config.map (·.text)) (some (folder.resolve disk.cwd))).log
      fault := by
  have hsettings := projectSettings_of_fault h
  cases command with
  | validate folder config sources =>
    cases hproject
    simp only [Command.activity, validateProject, Activity.bind_eq, disk_andThen]
    exact andThen_of_withoutSettings _ hsettings
  | suggest folder config sources output =>
    cases hproject
    simp only [Command.activity, suggestForProject, Activity.bind_eq, disk_andThen]
    exact andThen_of_withoutSettings _ hsettings
  | display _ _ _ => cases hproject
  | initialise _ _ => cases hproject

/-- Whatever a file of settings holds, a load that fails does so by one of the failures of that
file, and a failure that comes with a message ends every command on the project with a summary. -/
theorem settings_fail_by_content (environment : Environment) :
    (∀ disk (loader : Loader) fault, (∀ path ∈ loader.file, disk.refusal? path = none) →
      (loader.reload disk environment).2.outcome = .error fault →
      ∃ path ∈ loader.file, LoadFailure disk path fault) ∧
    (∀ disk asked root file fault, (chooseFile disk environment asked root).outcome = .ok file →
      (Loader.start disk environment asked root).outcome = .error fault →
      ∃ path ∈ file, LoadFailure disk path fault) ∧
    ∀ disk verbose (command : Command) folder config message,
      command.project? = some (folder, config) →
      let start :=
        Loader.start disk environment (config.map (·.text)) (some (folder.resolve disk.cwd))
      start.outcome = .error (.badConfiguration message) →
      CommandRun.ofOutcome verbose (command.activity environment disk) =
        ⟨disk, CommandRun.shownEvents verbose start.log,
          Screen.stack (summaryLines "Error Summary" message), .exit 1⟩ := by
  refine ⟨fun disk loader fault hlookup hfault => ?_,
    fun disk asked root file fault hchosen hfault => ?_,
    fun disk verbose command folder config message hproject => ?_⟩
  · exact loadSettings_fault hlookup (Loader.reload_fault hfault)
  · have hlookup : ∀ path ∈ file, disk.refusal? path = none := fun path hpath =>
      refusal?_of_chooseFile (hchosen.trans (congrArg _ hpath))
    exact loadSettings_fault hlookup (Loader.start_fault hchosen hfault)
  · intro start hfault
    rw [activity_of_fault hproject hfault]
    rfl

end

/-- A list in the place of settings is named in a message, which ends the command. Once the file
holds a day that is not in the calendar, the loader that is asked again meets a scalar that cannot
be read. -/
theorem settings_fail_by_content_of_list :
    let file : Path := ⟨.root, ["p".toList, projectFileName]⟩
    let diskWith (content : Text) : Disk := ⟨(FileSystem.empty.put [] "p".toList .folder).put
      ["p".toList] projectFileName (.file (Utf8.encode content)), ["p".toList]⟩
    let disk := diskWith "- 1\n".toList
    let later := diskWith "day: 2024-13-45\n".toList
    let environment : Environment := ⟨[("HOME".toList, "/u".toList)], Path.ofText "/u".toList⟩
    let message := Text.phrase ["Configuration in ", file.text, " must be a mapping"]
    let command : Command := .validate (Path.ofText ['.']) none none
    (∃ path ∈ some file, LoadFailure disk path (.badConfiguration message)) ∧
      (∃ path ∈ some file, LoadFailure later path (.badScalar .valueOutOfRange)) ∧
      (CommandRun.ofOutcome false (command.activity environment disk)).output =
        Screen.stack (summaryLines "Error Summary" message) ∧
      (CommandRun.ofOutcome false (command.activity environment disk)).ending = .exit 1 := by
  intro file diskWith disk later environment message command
  obtain ⟨hreload, hstart, hcommand⟩ := settings_fail_by_content environment
  have hchosen : (chooseFile disk environment none (some ⟨.root, ["p".toList]⟩)).outcome =
      .ok (some file) := by
    decide +kernel
  have hstarted : (Loader.start disk environment none (some ⟨.root, ["p".toList]⟩)).outcome =
      .error (.badConfiguration message) :=
    eq_error_of_isFault (by decide +kernel)
  have hlookup : ∀ path ∈ some file, later.refusal? path = none := by
    rintro path ⟨⟩
    decide +kernel
  have hreloaded : (Loader.reload later environment ⟨some file, []⟩).2.outcome =
      .error (.badScalar .valueOutOfRange) :=
    eq_error_of_isFault (by decide +kernel)
  have hrun := hcommand disk false command (Path.ofText ['.']) none message rfl hstarted
  refine ⟨hstart disk none _ (some file) _ hchosen hstarted,
    hreload later ⟨some file, []⟩ _ hlookup hreloaded, ?_, ?_⟩
  · rw [hrun]
  · rw [hrun]

/-- A byte that is not text is named in no message: it ends the command as it is. -/
theorem settings_fail_unnamed_on_stray_byte :
    let file : Path := ⟨.root, ["p".toList, projectFileName]⟩
    let disk : Disk := ⟨(FileSystem.empty.put [] "p".toList .folder).put ["p".toList]
      projectFileName (.file [0xFF]), ["p".toList]⟩
    let environment : Environment := ⟨[("HOME".toList, "/u".toList)], Path.ofText "/u".toList⟩
    let run := runCommand environment ["validate".toList, ['.']] disk
    (loadSettings disk environment (some file)).outcome = .error .undecodableConfiguration ∧
      run.ending = .fault .undecodableConfiguration ∧ run.output = [] := by
  intro file disk environment run
  exact ⟨eq_error_of_isFault (by decide +kernel), by decide +kernel, by decide +kernel⟩

end DocGraph
