import DocGraph.Proofs.Files.Lookup

/-!
# The source files of a project

`foundFiles` are the files that a listing finds for an exclusion list of patterns, and
`sourcesBelow` the readable ones among them. A visit to the source files below a folder gives the
results for just these, in order, unless the listing is refused.

A listing is refused if its folder is, if it meets a folder with too long a path, or if it meets a
name with the ending that cannot be looked up.
-/

namespace DocGraph

/-- What the files of the language end in, as the parts of an ending. -/
def javaParts : List EndingPart := [.name (Glob.parse "*.java".toList)]

theorem readAll?_javaEnding : EndingPart.readAll? javaEnding = some javaParts := by decide

/-- The error that ends a listing for an ending with the given parts. -/
def listingRefusal? (disk : Disk) (folder : Path) (parts : List EndingPart) : Option FileError :=
  match disk.spot folder with
  | .object route .folder =>
    match overlongFolder? disk folder route with
    | some path => some ⟨.nameTooLong, path⟩
    | none => (endingNames disk folder route parts).findSome? fun names =>
        disk.refusal? (folder.behind names)
  | _ => disk.refusal? folder

/-- The error that ends a listing of source files. -/
def sourceRefusal? (disk : Disk) (folder : Path) : Option FileError :=
  listingRefusal? disk folder javaParts

/-- The files below a folder that end as the parts say and that no pattern excludes, in order. -/
def endingPaths (disk : Disk) (folder : Path) (parts : List EndingPart) (patterns : List Text) :
    List Path :=
  match disk.spot folder with
  | .object route .folder =>
    ((endingNames disk folder route parts).filter fun names =>
      disk.hasFile (folder.behind names) && !anyExcludes patterns ⟨.here, names⟩).map folder.behind
  | _ => []

/-- The files of the language below a folder that no pattern excludes, in order. -/
def foundFiles (disk : Disk) (folder : Path) (patterns : List Text) : List Path :=
  endingPaths disk folder javaParts patterns

/-- The source file at a path, if it can be read. -/
def Disk.sourceAt? [Java.SourceReader] (disk : Disk) (file : Path) : Option SourceFile :=
  (disk.content? file).map (Disk.sourceOf file)

/-- The readable source files below a folder that no pattern excludes, in order. -/
def sourcesBelow [Java.SourceReader] (disk : Disk) (folder : Path) (patterns : List Text) :
    List SourceFile :=
  (foundFiles disk folder patterns).filterMap disk.sourceAt?

variable {disk : Disk} {folder file : Path} {patterns : List Text} {step : ListingStep}
variable {parts : List EndingPart} {ending : Text}

/-! ## Listings -/

namespace ListingStep

/-- The file that a step of a listing finds. -/
def file? : ListingStep → Option Path
  | found file => some file
  | _ => none

/-- The fault that a step of a listing ends in. -/
def fault? : ListingStep → Option Fault
  | unreachable error => some (.file error)
  | badEnding => some .badEnding
  | badExclusion fault => some (.badExclusion fault)
  | _ => none

@[simp] theorem file?_excluded (file : Path) : (excluded file).file? = none := rfl

@[simp] theorem file?_found (file : Path) : (found file).file? = some file := rfl

@[simp] theorem fault?_excluded (file : Path) : (excluded file).fault? = none := rfl

@[simp] theorem fault?_found (file : Path) : (found file).fault? = none := rfl

theorem outcome_found? (step : ListingStep) : step.found?.outcome =
    match step.fault? with
    | some fault => .error fault
    | none => .ok step.file? := by
  cases step <;> rfl

end ListingStep

/-- The first name that is refused ends a listing. Where there is none, the files among the names
are found. -/
theorem listingSteps_patterns (disk : Disk) (folder : Path) (patterns : List Text)
    (names : List (List Text)) :
    (listingSteps disk folder (patterns.map .pattern) names).findSome? ListingStep.fault? =
        (names.findSome? fun names => disk.refusal? (folder.behind names)).map .file ∧
      ((∀ other ∈ names, disk.refusal? (folder.behind other) = none) →
        (listingSteps disk folder (patterns.map .pattern) names).filterMap ListingStep.file? =
          (names.filter fun names => disk.hasFile (folder.behind names) &&
            !anyExcludes patterns ⟨.here, names⟩).map folder.behind) := by
  induction names with
  | nil => exact ⟨rfl, fun _ => rfl⟩
  | cons names rest ih =>
    obtain ⟨hfault, hfiles⟩ := ih
    rw [listingSteps, List.findSome?_cons, List.forall_mem_cons]
    cases hrefusal : disk.refusal? (folder.behind names) with
    | some error =>
      rw [Disk.isFile_of_refusal? hrefusal]
      exact ⟨rfl, fun h => by cases h.1⟩
    | none =>
      rw [Disk.isFile_eq_hasFile hrefusal, excludes_patterns]
      cases hfile : disk.hasFile (folder.behind names) with
      | false => exact ⟨hfault, fun h => by simp [hfile, hfiles h.2]⟩
      | true =>
        cases hexcluded : anyExcludes patterns ⟨.here, names⟩ with
        | true =>
          refine ⟨hfault, fun h => ?_⟩
          rw [List.filter_cons_of_neg (by simp [hexcluded]), ← hfiles h.2]
          rfl
        | false =>
          refine ⟨hfault, fun h => ?_⟩
          rw [List.filter_cons_of_pos (by simp [hfile, hexcluded]), List.map_cons, ← hfiles h.2]
          rfl

/-- With patterns only, a listing ends early if it is refused. If not, it finds its files. -/
theorem listing_of_parts (hparts : EndingPart.readAll? ending = some parts)
    (hending : ending.getLast? ≠ some '/') (disk : Disk) (folder : Path) (patterns : List Text) :
    (listing disk folder ending (patterns.map .pattern)).findSome? ListingStep.fault? =
        (listingRefusal? disk folder parts).map .file ∧
      (listingRefusal? disk folder parts = none →
        (listing disk folder ending (patterns.map .pattern)).filterMap ListingStep.file? =
          endingPaths disk folder parts patterns) := by
  rw [listing, listingRefusal?, endingPaths, Disk.refusal?]
  cases hspot : disk.spot folder with
  | object route object =>
    cases object with
    | folder =>
      simp only [hparts]
      cases overlongFolder? disk folder route with
      | some path => exact ⟨rfl, fun h => by cases h⟩
      | none =>
        simp only [if_neg hending]
        obtain ⟨hfault, hfiles⟩ := listingSteps_patterns disk folder patterns
          (endingNames disk folder route parts)
        exact ⟨hfault, fun h => hfiles (List.findSome?_eq_none_iff.1 h)⟩
    | file content => exact ⟨rfl, fun _ => rfl⟩
    | locked => exact ⟨rfl, fun _ => rfl⟩
  | vacant above name => exact ⟨rfl, fun _ => rfl⟩
  | blocked fault =>
    cases habsence : fault.isAbsence
    · exact ⟨by simp [habsence, ListingStep.fault?], fun h => by simp [habsence] at h⟩
    · exact ⟨by simp [habsence, ListingStep.fault?], fun _ => by simp [habsence, ListingStep.file?]⟩

theorem found_mem_listingSteps {names : List (List Text)}
    (h : .found file ∈ listingSteps disk folder (patterns.map .pattern) names) :
    ∃ inner ∈ names, disk.hasFile (folder.behind inner) = true ∧
      anyExcludes patterns ⟨.here, inner⟩ = false ∧ file = folder.behind inner := by
  induction names with
  | nil => cases h
  | cons inner rest ih =>
    have hrest : .found file ∈ listingSteps disk folder (patterns.map .pattern) rest →
        ∃ other ∈ inner :: rest, disk.hasFile (folder.behind other) = true ∧
          anyExcludes patterns ⟨.here, other⟩ = false ∧ file = folder.behind other := by
      intro hmem
      obtain ⟨other, hother, hfound⟩ := ih hmem
      exact ⟨other, List.mem_cons_of_mem _ hother, hfound⟩
    rw [listingSteps, excludes_patterns] at h
    cases hfile : disk.isFile (folder.behind inner) with
    | error error =>
      rw [hfile] at h
      cases List.mem_singleton.1 h
    | ok isFile =>
      rw [hfile] at h
      cases isFile with
      | false => exact hrest h
      | true =>
        cases hexcluded : anyExcludes patterns ⟨.here, inner⟩ with
        | true =>
          rw [hexcluded] at h
          rcases List.mem_cons.1 h with heq | hmem
          · cases heq
          · exact hrest hmem
        | false =>
          rw [hexcluded] at h
          rcases List.mem_cons.1 h with heq | hmem
          · cases heq
            exact ⟨inner, List.mem_cons_self, (Disk.isFile_eq_ok_iff.1 hfile).2, hexcluded, rfl⟩
          · exact hrest hmem

/-- Whatever the ending is, a listing finds files that it looked for. -/
theorem exists_parts_of_found
    (h : .found file ∈ listing disk folder ending (patterns.map .pattern)) :
    ∃ parts, file ∈ endingPaths disk folder parts patterns := by
  rw [listing] at h
  split at h
  · next route hspot =>
    split at h
    · simp at h
    · simp at h
    · next parts _ _ =>
      split at h
      · cases h
      · obtain ⟨names, hnames, hfile, hkept, rfl⟩ := found_mem_listingSteps h
        refine ⟨parts, ?_⟩
        simp only [endingPaths, hspot]
        exact List.mem_map.2 ⟨names, List.mem_filter.2 ⟨hnames, by simp [hfile, hkept]⟩, rfl⟩
  · simp at h
  · simp at h
  · split at h <;> simp at h

/-! ## Visits -/

variable [Java.SourceReader]

theorem outcome_visitFile {β : Type} (disk : Disk) (onError : Path → FileError → Event)
    (f : SourceFile → β) (file : Path) :
    (visitFile disk onError (fun source => Run.done (f source)) file).outcome =
      .ok ((disk.sourceAt? file).map f) := by
  rw [visitFile, Disk.sourceAt?]
  cases hcontent : disk.content? file with
  | none =>
    obtain ⟨error, herror⟩ := Disk.exists_readSourceFile_error hcontent
    simp [herror]
  | some content => simp [Disk.readSourceFile_of_content hcontent]

/-- One step of a listing is a fault, a visit, or nothing. -/
theorem outcome_visitStep {β : Type} (disk : Disk) (onError : Path → FileError → Event)
    (f : SourceFile → β) (step : ListingStep) :
    (step.found?.andThen fun
      | some file => visitFile disk onError (fun source => Run.done (f source)) file
      | none => Run.done none).outcome =
        match step.fault? with
        | some fault => .error fault
        | none => .ok ((step.file?.bind disk.sourceAt?).map f) := by
  rw [Run.outcome_andThen, ListingStep.outcome_found?]
  cases step.fault? with
  | some fault => rfl
  | none =>
    cases step.file? with
    | none => rfl
    | some file => exact outcome_visitFile disk onError f file

/-- A visit to the source files of a project gives the results for its readable files, in order,
unless the listing is refused. -/
theorem outcome_visitSources {β : Type} (disk : Disk) (folder : Path) (patterns : List Text)
    (onError : Path → FileError → Event) (f : SourceFile → β) :
    (visitSources disk folder (patterns.map .pattern) onError fun source =>
      Run.done (f source)).outcome =
        match sourceRefusal? disk folder with
        | some error => .error (.file error)
        | none => .ok ((sourcesBelow disk folder patterns).map f) := by
  obtain ⟨hfault, hfiles⟩ :=
    listing_of_parts readAll?_javaEnding (by decide) disk folder patterns
  have hsteps := Run.outcome_forEach fun step
    (_ : step ∈ listing disk folder javaEnding (patterns.map .pattern)) =>
      outcome_visitStep disk onError f step
  rw [hfault] at hsteps
  rw [visitSources, sourceRefusal?]
  refine (Run.outcome_andThen _ _).trans ((congrArg (Except.bind · _) hsteps).trans ?_)
  cases hrefusal : listingRefusal? disk folder javaParts with
  | some error => rfl
  | none =>
    have hvalues : ((listing disk folder javaEnding (patterns.map .pattern)).map
        fun step => (step.file?.bind disk.sourceAt?).map f).filterMap id =
          (sourcesBelow disk folder patterns).map f := by
      rw [sourcesBelow, foundFiles, ← hfiles hrefusal, List.filterMap_filterMap,
        List.filterMap_map, List.map_filterMap]
      rfl
    simp only [Option.map_none, Except.bind, hvalues, Run.pure_eq, Run.outcome_done]

end DocGraph
