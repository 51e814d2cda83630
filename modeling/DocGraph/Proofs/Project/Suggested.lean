import DocGraph.Project.Suggestion
import DocGraph.Proofs.Files.Writing
import DocGraph.Proofs.Java.Outline
import DocGraph.Proofs.Java.Naming
import DocGraph.Proofs.Project.ClassIndex

/-!
# What suggestions leave behind

A run that suggests graphs to its end has written a file for every named type that a source file
declares. Where several types share a name, what was written last stays: the suggestion for the last
of them in the order of the files and of the declarations in each. Nothing else has changed but that
the folder of the files is there now, with all folders around it.

Without a source folder there is nothing to suggest, and nothing is touched.
-/

namespace DocGraph

open Java (Tree usedTypes)

/-! ## Runs that end well -/

/-- A sequence that ends well is its second run, on the disk that the first one left. -/
theorem DiskRun.of_outcome_andThen {α β : Type} {first : DiskRun α} {next : Disk → α → DiskRun β}
    {b : β} (h : (first.andThen next).run.outcome = .ok b) :
    ∃ a, first.run.outcome = .ok a ∧ (next first.disk a).run.outcome = .ok b ∧
      (first.andThen next).disk = (next first.disk a).disk := by
  rw [andThen] at h ⊢
  cases hfirst : first.run.outcome with
  | error fault =>
    rw [hfirst] at h
    cases h
  | ok a =>
    rw [hfirst] at h
    exact ⟨a, rfl, h, rfl⟩

/-- The same for a first run that leaves the disk alone. -/
theorem DiskRun.of_outcome_reading {α β : Type} {disk : Disk} {run : Run α}
    {next : Disk → α → DiskRun β} {b : β}
    (h : ((DiskRun.reading disk run).andThen next).run.outcome = .ok b) :
    ∃ a, run.outcome = .ok a ∧ (next disk a).run.outcome = .ok b ∧
      ((DiskRun.reading disk run).andThen next).disk = (next disk a).disk :=
  of_outcome_andThen h

theorem DiskRun.of_outcome_write {disk : Disk} {file : Path} {content : Bytes} {a : Unit}
    (h : (DiskRun.write disk file content).run.outcome = .ok a) :
    disk.write file content = .ok (DiskRun.write disk file content).disk := by
  rw [DiskRun.write] at h ⊢
  cases hwrite : disk.write file content with
  | error error =>
    rw [hwrite] at h
    cases h
  | ok after => rfl

theorem DiskRun.of_outcome_makeFolders {disk : Disk} {folder : Path} {a : Unit}
    (h : (DiskRun.makeFolders disk folder).run.outcome = .ok a) :
    disk.makeFolders folder = ((DiskRun.makeFolders disk folder).disk, none) := by
  rw [DiskRun.makeFolders] at h ⊢
  cases hmade : disk.makeFolders folder with
  | mk after error? =>
    cases error? with
    | none => rfl
    | some error =>
      rw [hmade] at h
      cases h

/-! ## Carrying out a plan -/

/-- The suggestion that a step of a plan writes. -/
def PlanStep.suggestion? : PlanStep → Option Suggestion
  | .write suggestion => some suggestion
  | _ => none

/-- That a disk comes of another one by writing suggestions into a folder, one after the other. -/
inductive Writes (output : Path) : Disk → List Suggestion → Disk → Prop
  | none (disk : Disk) : Writes output disk [] disk
  | write {disk next after : Disk} {suggestion : Suggestion} {rest : List Suggestion}
      (hfirst : disk.write (output.child suggestion.fileName) (Utf8.encode suggestion.text) =
        .ok next)
      (hrest : Writes output next rest after) : Writes output disk (suggestion :: rest) after

variable {disk after : Disk} {folder output : Path} {patterns : List Text} {root out : Route}
variable {steps : List PlanStep} {files : List Path} {suggestions : List Suggestion}
variable {project : List Text}

/-- A plan that is carried out to its end stops nowhere and has written all its suggestions. -/
theorem writes_of_carryOut (h : (carryOut output steps disk).run.outcome = .ok files) :
    Writes output disk (steps.filterMap PlanStep.suggestion?) (carryOut output steps disk).disk ∧
      (files = (steps.filterMap PlanStep.suggestion?).map fun suggestion =>
        output.child suggestion.fileName) ∧
      ∀ fault, .stop fault ∉ steps := by
  induction steps generalizing disk files with
  | nil =>
    cases h
    exact ⟨.none disk, rfl, fun fault hstop => by cases hstop⟩
  | cons step rest ih =>
    cases step with
    | report events =>
      obtain ⟨_, -, hrest, hdisk⟩ := DiskRun.of_outcome_andThen h
      obtain ⟨hwrites, hfiles, hstops⟩ := ih hrest
      rw [carryOut, hdisk]
      exact ⟨hwrites, hfiles, fun fault => by simpa using hstops fault⟩
    | write suggestion =>
      obtain ⟨_, hwrite, hlater, hdisk⟩ := DiskRun.of_outcome_andThen h
      obtain ⟨later, hrest, hlast, hdisk'⟩ := DiskRun.of_outcome_andThen hlater
      obtain ⟨hwrites, hfiles, hstops⟩ := ih hrest
      cases hlast
      rw [carryOut, hdisk, hdisk', hfiles]
      exact ⟨.write (DiskRun.of_outcome_write hwrite) hwrites, rfl,
        fun fault => by simpa using hstops fault⟩
    | stop fault => cases h

namespace Writes

/-- Of all that was written to one place, the last is there, and it is found under its name. Where
nothing was written, there is what was there. -/
theorem objectAt (h : Writes output disk suggestions after)
    (hspot : disk.spot output = .object out .folder)
    (hnames : ∀ suggestion ∈ suggestions, Disk.isPossibleName suggestion.fileName = true) :
    disk.KeepsFolders after ∧ after.files.access = disk.files.access ∧
      (∀ route, after.files.objectAt route =
        ((suggestions.filter fun suggestion => route == out ++ [suggestion.fileName]).getLast?.map
          fun suggestion => .file (Utf8.encode suggestion.text)).or (disk.files.objectAt route)) ∧
      ∀ suggestion ∈ suggestions,
        after.refusal? (output.child suggestion.fileName) = Option.none := by
  induction h with
  | none disk =>
    refine ⟨⟨rfl, fun hfolder => ⟨hfolder, rfl⟩⟩, rfl, fun route => rfl, ?_⟩
    intro suggestion hsuggestion
    cases hsuggestion
  | @write disk next after suggestion rest hfirst hrest ih =>
    obtain ⟨hputs, hnext⟩ := Disk.puts_of_write hspot (hnames suggestion List.mem_cons_self) hfirst
    have hkeeps := hputs.keepsFolders
    obtain ⟨hkeepsRest, haccess, hafter, hopen⟩ := ih (hkeeps.spot hspot)
      fun other hother => hnames other (List.mem_cons_of_mem _ hother)
    have hthere : ∃ object, after.files.objectAt (out ++ [suggestion.fileName]) = some object := by
      rw [hafter, hputs.objectAt, if_pos rfl]
      cases (rest.filter fun other =>
        out ++ [suggestion.fileName] == out ++ [other.fileName]).getLast? <;> exact ⟨_, rfl⟩
    obtain ⟨object, hobject⟩ := hthere
    refine ⟨hkeeps.trans hkeepsRest, haccess.trans hputs.access, fun route => ?_, ?_⟩
    · rw [hafter, hputs.objectAt]
      by_cases hroute : route = out ++ [suggestion.fileName]
      · rw [if_pos hroute, List.filter_cons_of_pos (by simpa using hroute), List.getLast?_cons]
        cases (rest.filter fun suggestion => route == out ++ [suggestion.fileName]).getLast? <;> rfl
      · rw [if_neg hroute, List.filter_cons_of_neg (by simpa using hroute)]
    · refine List.forall_mem_cons.2 ⟨?_, hopen⟩
      have hbehind := hkeepsRest.refusal?_behind (hkeeps.spot hspot)
        (Disk.objectAt_of_spot hnext) hobject
      exact hbehind.trans (Disk.refusal?_of_spot hnext)

end Writes

/-! ## The plan -/

section

variable [Java.SourceReader]

theorem sourcesBelow_of_gainsFolders {path : Path} (h : disk.GainsFolders after path)
    (hspot : disk.spot folder = .object root .folder) :
    sourcesBelow after folder patterns = sourcesBelow disk folder patterns := by
  have hsame : ∀ {names content}, after.files.objectAt (root ++ names) = some (.file content) ∨
      disk.files.objectAt (root ++ names) = some (.file content) →
        after.files.objectAt (root ++ names) = disk.files.objectAt (root ++ names) := by
    rintro names content (hafter | hold)
    · rcases h.origin hafter with hold | ⟨hfolder, -⟩
      · rw [hafter, hold]
      · cases hfolder
    · rw [hold, h.kept hold]
  refine sourcesBelow_congr fun names content => ?_
  have hthere := h.keepsFolders.spot hspot
  constructor
  · intro hsource
    have hobject := hsame (.inl ((meets_iff hthere).1 hsource.met).1)
    exact (h.keepsFolders.isSource_iff hspot hobject (by rw [h.access])).1 hsource
  · intro hsource
    have hobject := hsame (.inr ((meets_iff hspot).1 hsource.met).1)
    exact (h.keepsFolders.isSource_iff hspot hobject (by rw [h.access])).2 hsource

omit [Java.SourceReader] in
theorem suggestions_planType (project : List Text) (declaration : Tree) :
    (planType project declaration).filterMap PlanStep.suggestion? =
      [.ofDeclaration project declaration] := rfl

theorem suggestions_planFile (disk : Disk) (project : List Text) (file : Path) :
    (planFile disk project file).filterMap PlanStep.suggestion? =
      (disk.sourceAt? file).toList.flatMap fun source =>
        (namedTypes source).map (Suggestion.ofDeclaration project) := by
  rw [planFile, Disk.sourceAt?]
  cases hcontent : disk.content? file with
  | none =>
    obtain ⟨error, herror⟩ := Disk.exists_readSourceFile_error hcontent
    rw [herror]
    rfl
  | some content =>
    rw [Disk.readSourceFile_of_content hcontent]
    simp only [List.filterMap_cons, PlanStep.suggestion?, List.filterMap_flatMap,
      suggestions_planType, Option.map_some, Option.toList_some, List.flatMap_singleton]
    exact List.map_eq_flatMap.symm

theorem suggestions_planStep {step : ListingStep} (h : step.fault? = none) :
    (planStep disk project step).filterMap PlanStep.suggestion? =
      (step.file?.bind disk.sourceAt?).toList.flatMap fun source =>
        (namedTypes source).map (Suggestion.ofDeclaration project) := by
  rw [planStep]
  simp only [ListingStep.outcome_found?, h, List.filterMap_cons, PlanStep.suggestion?]
  cases step.file? with
  | none => rfl
  | some file => exact suggestions_planFile disk project file

theorem suggestions_planSteps {steps : List ListingStep} (h : ∀ step ∈ steps, step.fault? = none) :
    (steps.flatMap (planStep disk project)).filterMap PlanStep.suggestion? =
      (((steps.filterMap ListingStep.file?).filterMap disk.sourceAt?).flatMap namedTypes).map
        (Suggestion.ofDeclaration project) := by
  induction steps with
  | nil => rfl
  | cons step rest ih =>
    have hrest := ih fun other hother => h other (List.mem_cons_of_mem _ hother)
    rw [List.flatMap_cons, List.filterMap_append, hrest,
      suggestions_planStep (h step List.mem_cons_self)]
    cases hfile : step.file? with
    | none => simp [hfile]
    | some file => cases hsource : disk.sourceAt? file <;> simp [hfile, hsource]

/-- The plan of a listing with a fault stops there. -/
theorem fault?_of_notMem_stop {steps : List ListingStep}
    (h : ∀ fault, .stop fault ∉ steps.flatMap (planStep disk project)) :
    ∀ step ∈ steps, step.fault? = none := by
  intro step hstep
  rw [Option.eq_none_iff_forall_ne_some]
  intro fault hfault
  refine h fault (List.mem_flatMap.2 ⟨step, hstep, ?_⟩)
  simp [planStep, ListingStep.outcome_found?, hfault]

/-- A plan that does not stop writes a suggestion for each named type in the source files, in order.
-/
theorem suggestions_plan
    (h : ∀ fault, .stop fault ∉ plan disk folder (patterns.map .pattern) project) :
    (plan disk folder (patterns.map .pattern) project).filterMap PlanStep.suggestion? =
      ((sourcesBelow disk folder patterns).flatMap namedTypes).map
        (Suggestion.ofDeclaration project) := by
  obtain ⟨hfault, hfiles⟩ :=
    listing_of_parts readAll?_javaEnding (by decide) disk folder patterns
  have hcalm := fault?_of_notMem_stop h
  have hrefusal : listingRefusal? disk folder javaParts = none := by
    rw [List.findSome?_eq_none_iff.2 hcalm] at hfault
    exact Option.map_eq_none_iff.1 hfault.symm
  rw [plan, suggestions_planSteps hcalm, hfiles hrefusal]
  rfl

/-! ## Names of files -/

/-- The named types of a source in pre-order. -/
def namedInOrder (root : Tree) : List Tree :=
  (root.typesInOrder.map (·.node)).filter (!·.declaredName.isEmpty)

omit [Java.SourceReader] in
theorem namedTypes_eq (source : SourceFile) :
    namedTypes source = namedInOrder source.tree.root := by
  rw [namedTypes, Tree.typeVisits_eq, namedInOrder]

omit [Java.SourceReader] in
/-- The file of a suggestion is named by the characters of a word. -/
theorem isPossibleName_fileName {suggestion : Suggestion}
    (h : isPlainName suggestion.type = true) :
    Disk.isPossibleName suggestion.fileName = true := by
  have hending : (".txt".toList.all fun c => c != '/' && c != '\x00') = true := by decide
  simp only [List.all_eq_true, Bool.and_eq_true, bne_iff_ne] at hending
  have hchars : ∀ c ∈ suggestion.fileName, c ≠ '/' ∧ c ≠ '\x00' := by
    intro c hc
    rcases List.mem_append.1 hc with htype | htxt
    · have hplain := List.all_eq_true.1 h c htype
      constructor
      · rintro rfl
        revert hplain
        decide
      · rintro rfl
        revert hplain
        decide
    · exact hending c htxt
  have hlength : 4 ≤ suggestion.fileName.length := by
    rw [Suggestion.fileName, List.length_append]
    exact Nat.le_add_left 4 _
  have hshort : ∀ name : Text, name.length < 4 → suggestion.fileName ≠ name := by
    rintro name hname heq
    rw [heq] at hlength
    omega
  have hempty := hshort [] (by decide)
  have hdot := hshort ['.'] (by decide)
  have hup := hshort Path.up (by decide)
  simp only [Disk.isPossibleName, Path.isWrittenName, Path.keepsName, Bool.and_eq_true,
    List.all_eq_true, bne_iff_ne, Bool.not_eq_true', List.isEmpty_eq_false_iff]
  exact ⟨⟨⟨⟨hempty, hdot⟩, fun c hc => (hchars c hc).1⟩, hup⟩, fun c hc => (hchars c hc).2⟩

theorem isPlainName_of_mem_namedTypes {source : SourceFile} {declaration : Tree}
    (hsource : source ∈ sourcesBelow disk folder patterns)
    (h : declaration ∈ namedTypes source) : isPlainName declaration.declaredName = true := by
  obtain ⟨names, content, -, rfl⟩ := mem_sourcesBelow_iff.1 hsource
  obtain ⟨visit, hvisit, rfl⟩ := List.mem_map.1 (List.mem_filter.1 h).1
  exact Java.SourceReader.plainNames (List.mem_filter.1 hvisit).1

/-- The class index holds the names of the types for which there are suggestions. -/
theorem mem_indexBelow_iff_named {name : Text} : name ∈ indexBelow disk folder patterns ↔
    ∃ declaration ∈ (sourcesBelow disk folder patterns).flatMap namedTypes,
      declaration.declaredName = name := by
  simp only [indexBelow, List.mem_eraseDups, ← List.flatMap_def, List.mem_flatMap,
    Tree.declaredTypeNames, namedTypes, List.mem_filter, List.mem_map]
  constructor
  · rintro ⟨source, hsource, ⟨visit, hvisit, rfl⟩, hne⟩
    exact ⟨visit.node, ⟨source, hsource, ⟨visit, hvisit, rfl⟩, hne⟩, rfl⟩
  · rintro ⟨_, ⟨source, hsource, ⟨visit, hvisit, rfl⟩, hne⟩, rfl⟩
    exact ⟨source, hsource, ⟨visit, hvisit, rfl⟩, hne⟩

/-! ## The run as a whole -/

/-- The name of the file with the suggestion for a type. -/
def suggestionFile (name : Text) : Text := name ++ ".txt".toList

/-- What is left in a folder when graphs were suggested for some declarations, with the types that a
project has. -/
structure LeavesSuggestions (disk after : Disk) (output : Path) (project : List Text)
    (declarations : List Tree) : Prop where
  /-- The file for a name holds the suggestion for the last declaration with that name. -/
  contents : ∀ name ∈ project, ∃ declaration route,
    (declarations.filter (·.declaredName == name)).getLast? = some declaration ∧
    after.spot (output.child (suggestionFile name)) = .object route (.file (Utf8.encode
      (suggestionHeader ++ suggestedGraph name (usedTypes declaration project))))
  /-- The files are in the output folder, and no other file is another than before. -/
  others : ∃ out, after.spot output = .object out .folder ∧
    ∀ route object, object ≠ .folder →
      (∀ declaration ∈ declarations, route ≠ out ++ [suggestionFile declaration.declaredName]) →
      (after.files.objectAt route = some object ↔ disk.files.objectAt route = some object)
  /-- Nothing else may be done with anything than before. -/
  access : after.files.access = disk.files.access
  /-- All folders are still there, and each new one is on the way to the output folder. -/
  folders : ∀ route, (disk.files.objectAt route = some .folder →
      after.files.objectAt route = some .folder) ∧
    (after.files.objectAt route = some .folder → disk.files.objectAt route = some .folder ∨
      ∃ names, names <+: output.names ∧ route = Path.routeFrom disk.cwd ⟨output.anchor, names⟩)

omit [Java.SourceReader] in
theorem filter_suggestions (project : List Text) (declarations : List Tree) (name : Text) :
    ((declarations.map (Suggestion.ofDeclaration project)).filter fun suggestion =>
        out ++ [suggestionFile name] == out ++ [suggestion.fileName]) =
      (declarations.filter (·.declaredName == name)).map (Suggestion.ofDeclaration project) := by
  rw [List.filter_map]
  congr 2
  funext declaration
  have hfile : (Suggestion.ofDeclaration project declaration).fileName =
      suggestionFile declaration.declaredName := rfl
  rw [Function.comp_apply, hfile, Bool.eq_iff_iff, beq_iff_eq, beq_iff_eq, suggestionFile,
    suggestionFile, List.append_cancel_left_eq, List.cons.injEq, List.append_left_inj]
  exact ⟨fun h => h.1.symm, fun h => ⟨h.symm, rfl⟩⟩

omit [Java.SourceReader] in
/-- What is left by writing a suggestion for each of some declarations after a folder was made. -/
theorem leavesSuggestions_of_writes {middle : Disk} {declarations : List Tree}
    (hmakes : disk.Makes middle output)
    (h : Writes output middle (declarations.map (Suggestion.ofDeclaration project)) after)
    (hnames : ∀ declaration ∈ declarations, isPlainName declaration.declaredName = true)
    (hproject : ∀ name ∈ project, ∃ declaration ∈ declarations, declaration.declaredName = name) :
    LeavesSuggestions disk after output project declarations := by
  obtain ⟨⟨out, hspot⟩, hgains⟩ := hmakes
  have hpossible : ∀ suggestion ∈ declarations.map (Suggestion.ofDeclaration project),
      Disk.isPossibleName suggestion.fileName = true := by
    intro suggestion hsuggestion
    obtain ⟨declaration, hdeclaration, rfl⟩ := List.mem_map.1 hsuggestion
    exact isPossibleName_fileName (hnames declaration hdeclaration)
  obtain ⟨hkeeps, haccess, hobjects, hopen⟩ := h.objectAt hspot hpossible
  refine ⟨?_, ⟨out, hkeeps.spot hspot, ?_⟩, haccess.trans hgains.access, ?_⟩
  · intro name hname
    obtain ⟨declaration, hdeclaration, hdeclared⟩ := hproject name hname
    have hne : declarations.filter (·.declaredName == name) ≠ [] :=
      List.ne_nil_of_mem (List.mem_filter.2 ⟨hdeclaration, by simpa using hdeclared⟩)
    obtain ⟨last, hlast⟩ := Option.isSome_iff_exists.1 (List.getLast?_isSome.2 hne)
    have hmem := List.mem_filter.1 (List.mem_of_getLast? hlast)
    obtain rfl : last.declaredName = name := by simpa using hmem.2
    have hobject : after.files.objectAt (out ++ [suggestionFile last.declaredName]) =
        some (.file (Utf8.encode (Suggestion.ofDeclaration project last).text)) := by
      rw [hobjects, filter_suggestions, List.getLast?_map, hlast]
      rfl
    exact ⟨last, _, hlast, Disk.spot_behind_of_not_refused (hkeeps.spot hspot) hobject
      (hopen _ (List.mem_map_of_mem hmem.1))⟩
  · intro route object hobject hother
    have hnone : ((declarations.map (Suggestion.ofDeclaration project)).filter fun suggestion =>
        route == out ++ [suggestion.fileName]) = [] := by
      rw [List.filter_eq_nil_iff]
      intro suggestion hsuggestion
      obtain ⟨declaration, hdeclaration, rfl⟩ := List.mem_map.1 hsuggestion
      rw [beq_iff_eq]
      exact hother declaration hdeclaration
    rw [hobjects, hnone]
    constructor
    · intro hafter
      rcases hgains.origin hafter with hold | ⟨rfl, -⟩
      · exact hold
      · exact absurd rfl hobject
    · exact fun hold => hgains.kept hold
  · intro route
    refine ⟨fun hold => (hkeeps.folders (hgains.kept hold)).1, fun hafter => ?_⟩
    rw [hobjects] at hafter
    cases hlast : ((declarations.map (Suggestion.ofDeclaration project)).filter fun suggestion =>
        route == out ++ [suggestion.fileName]).getLast? with
    | some suggestion =>
      rw [hlast] at hafter
      cases hafter
    | none =>
      rw [hlast] at hafter
      rcases hgains.origin hafter with hold | ⟨-, names, hnames, hroute⟩
      · exact .inl hold
      · exact .inr ⟨names, hnames, hroute⟩

omit [Java.SourceReader] in
theorem isFolder_of_outcome {isFolder : Bool}
    (h : (Run.ofFiles (disk.isFolder folder)).outcome = .ok isFolder) :
    isFolder = true ↔ ∃ root, disk.spot folder = .object root .folder := by
  rw [← Disk.isFolder_eq_true_iff]
  cases hfolder : disk.isFolder folder with
  | error error =>
    rw [hfolder] at h
    cases h
  | ok there =>
    rw [hfolder] at h
    cases h
    simp

/-- What a run that suggests graphs to its end consists of. -/
theorem steps_of_suggest {exclude : List ExclusionItem}
    (h : (suggest disk folder output exclude).run.outcome = .ok files) :
    ((∀ root, disk.spot folder ≠ .object root .folder) ∧
      (suggest disk folder output exclude).disk = disk ∧ files = []) ∨
    ∃ root index middle, disk.spot folder = .object root .folder ∧
      (classIndex disk folder exclude).outcome = .ok index ∧
      disk.makeFolders output = (middle, none) ∧
      (carryOut output (plan middle folder exclude index) middle).run.outcome = .ok files ∧
      (suggest disk folder output exclude).disk =
        (carryOut output (plan middle folder exclude index) middle).disk := by
  rw [suggest] at h ⊢
  obtain ⟨isFolder, hisFolder, hrun, hdisk⟩ := DiskRun.of_outcome_reading h
  have hfolder := isFolder_of_outcome hisFolder
  rw [hdisk]
  cases isFolder with
  | false =>
    cases hrun
    exact .inl ⟨fun root hspot => Bool.noConfusion (hfolder.2 ⟨root, hspot⟩), rfl, rfl⟩
  | true =>
    rw [if_pos rfl] at hrun ⊢
    obtain ⟨root, hspot⟩ := hfolder.1 rfl
    obtain ⟨index, hindex, hmaking, hdisk⟩ := DiskRun.of_outcome_reading hrun
    rw [hdisk]
    obtain ⟨_, hmade, hcarrying, hdisk⟩ := DiskRun.of_outcome_andThen hmaking
    rw [hdisk]
    obtain ⟨written, hcarried, hlast, hdisk⟩ := DiskRun.of_outcome_andThen hcarrying
    rw [hdisk]
    cases hlast
    exact .inr ⟨root, index, _, hspot, hindex, DiskRun.of_outcome_makeFolders hmade, hcarried, rfl⟩

/-- A run that suggests graphs to its end leaves a file for each name that is declared, with what is
suggested for the last declaration of that name, and nothing else that is new but folders. Without a
source folder it leaves everything as it was. -/
theorem suggest_leaves {disk : Disk} {folder output : Path} {patterns : List Text}
    {written : List Path} (houtput : output.IsWritten)
    (h : (suggest disk folder output (patterns.map .pattern)).run.outcome = .ok written) :
    let after := (suggest disk folder output (patterns.map .pattern)).disk
    ((∀ root, disk.spot folder ≠ .object root .folder) → after = disk ∧ written = []) ∧
    ∀ root, disk.spot folder = .object root .folder →
      ∃ sources index, ListsSources disk folder patterns sources ∧
        (classIndex disk folder (patterns.map .pattern)).outcome = .ok index ∧
        (∀ name, name ∈ index ↔
          name ≠ [] ∧ ∃ names, DeclaresAt disk folder patterns names name) ∧
        let declarations := sources.flatMap fun source => namedInOrder source.tree.root
        written = declarations.map (fun declaration =>
          output.child (suggestionFile declaration.declaredName)) ∧
        LeavesSuggestions disk after output index declarations := by
  intro after
  rcases steps_of_suggest h with ⟨hno, hsame, hnone⟩ |
      ⟨place, index, middle, hspot, hindex, hmade, hcarried, hafter⟩
  · exact ⟨fun _ => ⟨hsame, hnone⟩, fun root hspot => absurd hspot (hno root)⟩
  refine ⟨fun hno => absurd hspot (hno place), fun _ _ => ?_⟩
  have hmakes := Disk.makes_of_makeFolders houtput hmade
  obtain ⟨hwrites, hwritten, hstops⟩ := writes_of_carryOut hcarried
  rw [suggestions_plan hstops, sourcesBelow_of_gainsFolders hmakes.gains hspot] at hwrites hwritten
  obtain rfl := index_of_outcome_classIndex hindex
  have hdeclarations : (sourcesBelow disk folder patterns).flatMap namedTypes =
      (sourcesBelow disk folder patterns).flatMap fun source => namedInOrder source.tree.root := by
    congr 1
    funext source
    exact namedTypes_eq source
  refine ⟨_, _, listsSources_sourcesBelow disk folder patterns, hindex,
    fun name => mem_indexBelow_iff, ?_, ?_⟩
  · rw [hwritten, ← hdeclarations, List.map_map]
    rfl
  · rw [← hdeclarations]
    change LeavesSuggestions disk (suggest disk folder output _).disk output _ _
    rw [hafter]
    refine leavesSuggestions_of_writes hmakes hwrites ?_ fun name => mem_indexBelow_iff_named.1
    intro declaration hdeclaration
    obtain ⟨source, hsource, hnamed⟩ := List.mem_flatMap.1 hdeclaration
    exact isPlainName_of_mem_namedTypes hsource hnamed

end

/-- Of two classes with one name, what is suggested for the second one stays. -/
theorem suggest_leaves_of_namesakes :
    let files := (FileSystem.empty.put [] "p".toList .folder).put ["p".toList] "A.java".toList
      (.file (Utf8.encode "class A \x7b class N \x7b\x7d \x7d class N \x7b A a; \x7d".toList))
    let folder : Path := ⟨.root, ["p".toList]⟩
    let output : Path := ⟨.root, ["p".toList, "out".toList, "graphs".toList]⟩
    let run := suggest ⟨files, []⟩ folder output []
    let written := [['A'], ['N'], ['N']].map fun name => output.child (suggestionFile name)
    run.run.outcome = .ok written ∧
      (∃ sources index, ListsSources ⟨files, []⟩ folder [] sources ∧
        (classIndex ⟨files, []⟩ folder []).outcome = .ok index ∧
        LeavesSuggestions ⟨files, []⟩ run.disk output index
          (sources.flatMap fun source => namedInOrder source.tree.root)) ∧
      run.disk.read (output.child (suggestionFile ['N'])) =
        .ok (Utf8.encode (suggestionHeader ++ suggestedGraph ['N'] [['A']])) := by
  intro files folder output run written
  have hrun : run.run.outcome = .ok written := by decide +kernel
  have hspot : (⟨files, []⟩ : Disk).spot folder = .object ["p".toList] .folder := by
    decide +kernel
  have houtput : ∀ name ∈ output.names, Path.isWrittenName name = true := by decide
  have hsame : run = suggest ⟨files, []⟩ folder output (([] : List Text).map .pattern) := rfl
  rw [hsame] at hrun ⊢
  obtain ⟨sources, index, hsources, hindex, -, -, hleaves⟩ :=
    (suggest_leaves houtput hrun).2 _ hspot
  refine ⟨hrun, ⟨sources, index, hsources, hindex, hleaves⟩, ?_⟩
  decide +kernel

/-- A source file in a folder that can be searched and not listed can be read, and nothing is
suggested for it. Of two namesakes the one whose path has the later names counts as the last,
although the text of its path comes first. -/
theorem suggest_misses_unlisted_and_orders_by_names :
    let start := ((((FileSystem.empty.put [] ['p'] .folder).put [['p']] ['a'] .folder).put [['p']]
      "a-b".toList .folder).put [['p']] ['h'] .folder).restrict [['p'], ['h']] ⟨false, true, true⟩
    let files := ((start.put [['p'], ['h']] "M.java".toList
      (.file (Utf8.encode "class M\x7b\x7d".toList))).put [['p'], ['a']] "N.java".toList
      (.file (Utf8.encode "class A\x7b\x7dclass N\x7bA a;\x7d".toList))).put [['p'], "a-b".toList]
      "N.java".toList (.file (Utf8.encode "class B\x7b\x7dclass N\x7bB b;\x7d".toList))
    let disk : Disk := ⟨files, []⟩
    let folder : Path := ⟨.root, [['p']]⟩
    let output : Path := ⟨.root, [['o']]⟩
    let run := suggest disk folder output []
    (run.run.outcome.map List.length = .ok 4) ∧
      disk.read (folder.behind [['h'], "M.java".toList]) =
        .ok (Utf8.encode "class M\x7b\x7d".toList) ∧
      run.disk.hasFile (output.child (suggestionFile ['M'])) = false ∧
      Text.le (folder.behind ["a-b".toList, "N.java".toList]).text
        (folder.behind [['a'], "N.java".toList]).text = true ∧
      run.disk.read (output.child (suggestionFile ['N'])) =
        .ok (Utf8.encode (suggestionHeader ++ suggestedGraph ['N'] [['B']])) := by
  refine ⟨?_, ?_, ?_, ?_, ?_⟩
  · decide +kernel
  · decide +kernel
  · decide +kernel
  · decide +kernel
  · decide +kernel

end DocGraph
