import DocGraph.Proofs.Files.Walk
import DocGraph.Project.SourceFile

/-!
# Looking up files

The questions to a file system have plain answers: whether a file is at a path, which content can be
read there, and at which of two paths a file is found. They fail where a path is refused: it or one
of its names is too long, or a folder on the way may not be searched. So each answer holds wherever
no path on the way is refused.
-/

namespace DocGraph

namespace Disk

/-- Whether a file is at a path, locked ones included. -/
def hasFile (disk : Disk) (path : Path) : Bool :=
  match disk.spot path with
  | .object _ object => object != .folder
  | _ => false

/-- The content of the readable file at a path. -/
def content? (disk : Disk) (path : Path) : Option Bytes := (disk.read path).toOption

/-- Where a file is found: at its path as it is, else below a folder. -/
def resolved? (disk : Disk) (base : Option Path) (file : Path) : Option Path :=
  if disk.hasFile file then some file
  else (base.map (·.append file)).filter disk.hasFile

/-- The error that keeps a file from being looked for. -/
def obstacle? (disk : Disk) (base : Option Path) (file : Path) : Option FileError :=
  match disk.refusal? file with
  | some error => some error
  | none =>
    if disk.hasFile file then none else base.bind fun base => disk.refusal? (base.append file)

variable {disk : Disk} {path file folder : Path} {base : Option Path} {route reached names : Route}
variable {object : FileObject} {content : Bytes} {error : FileError} {fault : FileFault}

/-! ## Where a walk starts -/

theorem start_eq_ok_iff : disk.start path = .ok reached ↔
    (∀ name ∈ path.names, '\x00' ∉ name) ∧ Utf8.size path.text ≤ maxPathSize ∧
      reached = (if path.isAbsolute then [] else disk.cwd) ∧
      (path.isAbsolute = false → disk.files.objectAt disk.cwd = some .folder ∧
        (disk.files.access disk.cwd).search = true) := by
  have hnul : path.names.any (·.elem '\x00') = false ↔ ∀ name ∈ path.names, '\x00' ∉ name := by
    simp
  rw [start, ← hnul]
  cases path.names.any (·.elem '\x00') with
  | true => simp
  | false =>
    by_cases hlong : maxPathSize < Utf8.size path.text
    · simp [hlong, Nat.not_le.2 hlong]
    · cases path.isAbsolute with
      | true =>
        simp only [hlong, if_true, if_false, Bool.false_eq_true, Except.ok.injEq]
        exact ⟨fun h => ⟨trivial, Nat.not_lt.1 hlong, h.symm, nofun⟩, fun h => h.2.2.1.symm⟩
      | false =>
        by_cases hfolder : disk.files.objectAt disk.cwd = some .folder
        · cases hsearch : (disk.files.access disk.cwd).search <;>
            simp [hlong, Nat.not_lt.1 hlong, hfolder, @eq_comm _ reached]
        · simp [hlong, hfolder]

theorem isFolder_of_start (h : disk.start path = .ok reached) :
    disk.files.objectAt reached = some .folder := by
  obtain ⟨-, -, rfl, hcwd⟩ := start_eq_ok_iff.1 h
  cases habsolute : path.isAbsolute with
  | true => rfl
  | false => exact (hcwd habsolute).1

theorem spot_of_start (h : disk.start path = .ok reached) :
    disk.spot path = walk disk.files reached path.names := by
  rw [spot, h]

theorem exists_start_of_spot {found : Spot} (h : disk.spot path = found)
    (hfound : ∀ fault, found ≠ .blocked fault) : ∃ reached, disk.start path = .ok reached := by
  cases hstart : disk.start path with
  | ok reached => exact ⟨reached, rfl⟩
  | error fault => exact absurd (by rw [← h, spot, hstart]) (hfound fault)

/-- A path that leads somewhere is walked to its end. -/
theorem exists_walk_of_spot (h : disk.spot path = .object route object) :
    ∃ reached, disk.start path = .ok reached ∧
      walk disk.files reached path.names = .object route object := by
  obtain ⟨reached, hstart⟩ := exists_start_of_spot h nofun
  exact ⟨reached, hstart, by rw [← spot_of_start hstart, h]⟩

/-! ## Questions to the file system -/

theorem routeFrom_of_spot (h : disk.spot path = .object route object) :
    route = path.routeFrom disk.cwd := by
  obtain ⟨reached, hstart, hwalk⟩ := exists_walk_of_spot h
  obtain ⟨-, -, rfl, -⟩ := start_eq_ok_iff.1 hstart
  exact route_of_walk hwalk

/-- Whatever a path leads to is there. -/
theorem objectAt_of_spot (h : disk.spot path = .object route object) :
    disk.files.objectAt route = some object := by
  obtain ⟨reached, hstart, hwalk⟩ := exists_walk_of_spot h
  exact objectAt_of_walk (isFolder_of_start hstart) hwalk

/-- An absolute path leads to the same place from everywhere. -/
theorem spot_of_isAbsolute {files : FileSystem} (h : path.isAbsolute = true) (here there : Route) :
    (⟨files, here⟩ : Disk).spot path = (⟨files, there⟩ : Disk).spot path := by
  simp only [spot, start, h, if_true]

theorem refusal?_eq_some_iff : disk.refusal? path = some error ↔
    ∃ fault, disk.spot path = .blocked fault ∧ fault.isAbsence = false ∧ error = ⟨fault, path⟩ := by
  rw [refusal?]
  cases disk.spot path with
  | object route object => simp
  | vacant folder name => simp
  | blocked fault => cases habsence : fault.isAbsence <;> simp [habsence, @eq_comm _ error]

/-- The longest path that can be looked up has 4095 bytes. A slash in front is one too many here. -/
example :
    let names := List.replicate 2048 ['a']
    (⟨.empty, []⟩ : Disk).refusal? ⟨.here, names⟩ = none ∧
      (⟨.empty, []⟩ : Disk).refusal? ⟨.root, names⟩ = some ⟨.nameTooLong, ⟨.root, names⟩⟩ := by
  decide +kernel

theorem refusal?_of_spot (h : disk.spot path = .object route object) :
    disk.refusal? path = none := by
  rw [refusal?, h]

theorem isFile_of_refusal? (h : disk.refusal? path = some error) :
    disk.isFile path = .error error := by
  rw [isFile, find?, h]
  rfl

theorem isFile_eq_hasFile (h : disk.refusal? path = none) :
    disk.isFile path = .ok (disk.hasFile path) := by
  rw [isFile, find?, h, hasFile]
  cases disk.spot path <;> rfl

theorem isFile_eq_ok_iff {answer : Bool} : disk.isFile path = .ok answer ↔
    disk.refusal? path = none ∧ disk.hasFile path = answer := by
  cases hrefusal : disk.refusal? path with
  | none => simp [isFile_eq_hasFile hrefusal]
  | some error => simp [isFile_of_refusal? hrefusal]

theorem isFolder_eq_true_iff :
    disk.isFolder path = .ok true ↔ ∃ route, disk.spot path = .object route .folder := by
  rw [isFolder, find?, refusal?]
  cases hspot : disk.spot path with
  | object route object => simp [Except.map]
  | vacant folder name => simp [Except.map]
  | blocked fault => cases habsence : fault.isAbsence <;> simp [habsence, Except.map]

theorem refusal?_of_hasFile (h : disk.hasFile path = true) : disk.refusal? path = none := by
  rw [hasFile] at h
  rw [refusal?]
  cases hspot : disk.spot path with
  | object route object => rfl
  | vacant folder name => rfl
  | blocked fault => simp [hspot] at h

theorem read_eq_ok_iff : disk.read path = .ok content ↔
    ∃ route, disk.spot path = .object route (.file content) ∧
      (disk.files.access route).read = true := by
  rw [read]
  cases disk.spot path with
  | object route object =>
    cases hread : (disk.files.access route).read with
    | true => cases object <;> simp [hread]
    | false => cases object <;> simp [hread]
  | vacant folder name => simp
  | blocked fault => simp

theorem content?_eq_some_iff : disk.content? path = some content ↔
    disk.read path = .ok content := by
  rw [content?]
  cases disk.read path <;> simp [Except.toOption]

theorem hasFile_iff : disk.hasFile path = true ↔
    ∃ route object, disk.spot path = .object route object ∧ object ≠ .folder := by
  rw [hasFile]
  cases disk.spot path with
  | object place object => simp
  | vacant folder name => simp
  | blocked fault => simp

theorem hasFile_of_content? (h : disk.content? path = some content) :
    disk.hasFile path = true := by
  obtain ⟨route, hspot, -⟩ := read_eq_ok_iff.1 (content?_eq_some_iff.1 h)
  exact hasFile_iff.2 ⟨route, _, hspot, by simp⟩

/-! ## Finding the file of an entry -/

theorem locate_of_obstacle (h : disk.obstacle? base file = some error) :
    disk.locate base file = .error error := by
  rw [obstacle?] at h
  cases hfirst : disk.refusal? file with
  | some first =>
    rw [hfirst] at h
    cases h
    simp [locate, isFile_of_refusal? hfirst, bind, Except.bind]
  | none =>
    simp only [hfirst] at h
    split at h
    · cases h
    · next hfile =>
      obtain ⟨folder, rfl, hbelow⟩ := Option.bind_eq_some_iff.1 h
      simp [locate, isFile_eq_hasFile hfirst, hfile, isFile_of_refusal? hbelow, bind, Except.bind]

theorem locate_eq_resolved (h : disk.obstacle? base file = none) :
    disk.locate base file = .ok (disk.resolved? base file) := by
  rw [obstacle?] at h
  cases hfirst : disk.refusal? file with
  | some first => simp [hfirst] at h
  | none =>
    simp only [hfirst] at h
    by_cases hfile : disk.hasFile file = true
    · simp [locate, resolved?, isFile_eq_hasFile hfirst, hfile, bind, Except.bind, pure,
        Except.pure]
    · rw [if_neg hfile] at h
      cases base with
      | none =>
        simp [locate, resolved?, isFile_eq_hasFile hfirst, hfile, bind, Except.bind, pure,
          Except.pure]
      | some folder =>
        rw [Option.bind_some] at h
        cases hfound : disk.hasFile (folder.append file) <;>
          simp [locate, resolved?, isFile_eq_hasFile hfirst, hfile, isFile_eq_hasFile h,
            Option.filter, hfound, bind, Except.bind, pure, Except.pure]

/-! ## Below a folder -/

theorem not_nul_of_isFileName {name : Text} (h : isFileName name = true) : '\x00' ∉ name := by
  intro hmem
  simp only [isFileName, Bool.and_eq_true, List.all_eq_true] at h
  simpa using h.1.2 _ hmem

theorem start_behind (h : disk.start folder = .ok reached)
    (hnames : ∀ name ∈ names, '\x00' ∉ name) :
    disk.start (folder.behind names) =
      if maxPathSize < Utf8.size (folder.behind names).text then .error .nameTooLong
      else .ok reached := by
  obtain ⟨hnul, -, rfl, hcwd⟩ := start_eq_ok_iff.1 h
  have hall : ∀ name ∈ (folder.behind names).names, '\x00' ∉ name :=
    List.forall_mem_append.2 ⟨hnul, hnames⟩
  split
  · next hlong =>
    have hnone : (folder.behind names).names.any (·.elem '\x00') = false := by simpa using hall
    rw [start, hnone, if_neg Bool.false_ne_true, if_pos hlong]
  · next hshort => exact start_eq_ok_iff.2 ⟨hall, Nat.not_lt.1 hshort, rfl, hcwd⟩

/-- What lies below the place of a folder is found below the path of the folder, if the path is not
too long and the folders on the way may be searched. -/
theorem spot_behind (h : disk.spot folder = .object route .folder)
    (hobject : disk.files.objectAt (route ++ names) = some object) (hne : names ≠ []) :
    disk.spot (folder.behind names) =
      if maxPathSize < Utf8.size (folder.behind names).text then .blocked .nameTooLong
      else if searches disk.files route names then .object (route ++ names) object
      else .blocked .denied := by
  obtain ⟨reached, hstart, hwalk⟩ := exists_walk_of_spot h
  have hbehind := start_behind hstart fun name hname => not_nul_of_isFileName
    (FileSystem.isFileName_of_mem hobject (List.mem_append_right _ hname))
  split
  · next hlong =>
    rw [if_pos hlong] at hbehind
    rw [spot, hbehind]
  · next hshort =>
    rw [if_neg hshort] at hbehind
    have hnames : (folder.behind names).names = folder.names ++ names := rfl
    rw [spot_of_start hbehind, hnames, walk_append hwalk, walk_of_objectAt hobject hne]

theorem behind_nil (folder : Path) : folder.behind [] = folder := by
  rw [Path.behind, List.append_nil]

/-- What keeps an object below a folder from being looked up: too long a path, or a folder on the
way that may not be searched. -/
theorem refusal?_behind (h : disk.spot folder = .object route .folder)
    (hobject : disk.files.objectAt (route ++ names) = some object) :
    disk.refusal? (folder.behind names) =
      if maxPathSize < Utf8.size (folder.behind names).text then
        some ⟨.nameTooLong, folder.behind names⟩
      else if searches disk.files route names then none
      else some ⟨.denied, folder.behind names⟩ := by
  by_cases hne : names = []
  · obtain ⟨reached, hstart, -⟩ := exists_walk_of_spot h
    have hsize := (start_eq_ok_iff.1 hstart).2.1
    rw [hne, behind_nil, refusal?_of_spot h, if_neg (Nat.not_lt.2 hsize), searches, if_pos rfl]
  · rw [refusal?, spot_behind h hobject hne]
    by_cases hlong : maxPathSize < Utf8.size (folder.behind names).text
    · rw [if_pos hlong, if_pos hlong]
      rfl
    · rw [if_neg hlong, if_neg hlong]
      cases searches disk.files route names <;> rfl

/-- So it is found there, unless its path is refused. -/
theorem spot_behind_of_not_refused (h : disk.spot folder = .object route .folder)
    (hobject : disk.files.objectAt (route ++ names) = some object)
    (hrefusal : disk.refusal? (folder.behind names) = none) :
    disk.spot (folder.behind names) = .object (route ++ names) object := by
  by_cases hne : names = []
  · subst hne
    rw [List.append_nil] at hobject ⊢
    rw [behind_nil, h, Option.some.inj ((objectAt_of_spot h).symm.trans hobject)]
  · have hspot := spot_behind h hobject hne
    rw [refusal?_behind h hobject] at hrefusal
    split at hrefusal
    · cases hrefusal
    · next hshort =>
      split at hrefusal
      · next hsearches => rw [hspot, if_neg hshort, if_pos hsearches]
      · cases hrefusal

theorem hasFile_behind (h : disk.spot folder = .object route .folder)
    (hobject : disk.files.objectAt (route ++ names) = some object)
    (hrefusal : disk.refusal? (folder.behind names) = none) :
    disk.hasFile (folder.behind names) = (object != .folder) := by
  rw [hasFile, spot_behind_of_not_refused h hobject hrefusal]

/-- A file below a folder is read at its path if this is not refused and the file may be read. -/
theorem read_behind (h : disk.spot folder = .object route .folder)
    (hobject : disk.files.objectAt (route ++ names) = some (.file content)) :
    disk.read (folder.behind names) = .ok content ↔
      disk.refusal? (folder.behind names) = none ∧
        (disk.files.access (route ++ names)).read = true := by
  rw [read_eq_ok_iff]
  constructor
  · rintro ⟨place, hspot, hread⟩
    have hrefusal := refusal?_of_spot hspot
    cases (spot_behind_of_not_refused h hobject hrefusal).symm.trans hspot
    exact ⟨hrefusal, hread⟩
  · rintro ⟨hrefusal, hread⟩
    exact ⟨_, spot_behind_of_not_refused h hobject hrefusal, hread⟩

/-! ## Disks with the same folders -/

/-- That the folders of a disk are folders of another one, with the same rights and seen from the
same place. -/
structure KeepsFolders (disk other : Disk) : Prop where
  cwd : other.cwd = disk.cwd
  folders : ∀ {place}, disk.files.objectAt place = some .folder →
    other.files.objectAt place = some .folder ∧ other.files.access place = disk.files.access place

theorem KeepsFolders.trans {middle last : Disk} (hfirst : disk.KeepsFolders middle)
    (hsecond : middle.KeepsFolders last) : disk.KeepsFolders last where
  cwd := hsecond.cwd.trans hfirst.cwd
  folders h := by
    obtain ⟨hmiddle, haccess⟩ := hfirst.folders h
    obtain ⟨hlast, haccess'⟩ := hsecond.folders hmiddle
    exact ⟨hlast, haccess'.trans haccess⟩

theorem KeepsFolders.start {other : Disk} (h : disk.KeepsFolders other)
    (hstart : disk.start path = .ok reached) : other.start path = .ok reached := by
  obtain ⟨hnul, hsize, rfl, hcwd⟩ := start_eq_ok_iff.1 hstart
  refine start_eq_ok_iff.2 ⟨hnul, hsize, by rw [h.cwd], fun hrelative => ?_⟩
  obtain ⟨hfolder, hsearch⟩ := hcwd hrelative
  obtain ⟨hkept, haccess⟩ := h.folders hfolder
  rw [h.cwd, haccess]
  exact ⟨hkept, hsearch⟩

/-- A path to a folder leads there as long as no folder is lost. -/
theorem KeepsFolders.spot {other : Disk} (h : disk.KeepsFolders other)
    (hspot : disk.spot path = .object route .folder) :
    other.spot path = .object route .folder := by
  obtain ⟨reached, hstart, hwalk⟩ := exists_walk_of_spot hspot
  rw [spot_of_start (h.start hstart)]
  exact walk_folder_mono h.folders (isFolder_of_start hstart) hwalk

theorem KeepsFolders.start_error {other : Disk} (h : disk.KeepsFolders other)
    (hfault : fault.isAbsence = false) (hstart : disk.start path = .error fault) :
    other.start path = .error fault := by
  unfold Disk.start at hstart ⊢
  split at hstart
  · cases hstart
    cases hfault
  · next hnul =>
    rw [if_neg hnul]
    split at hstart
    · next hlong => rw [if_pos hlong, hstart]
    · next hlong =>
      rw [if_neg hlong]
      split at hstart
      · cases hstart
      · next habsolute =>
        rw [if_neg habsolute]
        split at hstart
        · cases hstart
          cases hfault
        · next hfolder =>
          obtain ⟨hkept, haccess⟩ := h.folders (not_not.1 hfolder)
          rwa [h.cwd, if_neg (not_not.2 hkept), haccess]

/-- A path that is refused stays so. -/
theorem KeepsFolders.refusal? {other : Disk} (h : disk.KeepsFolders other)
    (hrefusal : disk.refusal? path = some error) : other.refusal? path = some error := by
  obtain ⟨fault, hspot, hfault, rfl⟩ := refusal?_eq_some_iff.1 hrefusal
  refine refusal?_eq_some_iff.2 ⟨fault, ?_, hfault, rfl⟩
  cases hstart : disk.start path with
  | ok reached =>
    rw [spot_of_start hstart] at hspot
    rw [spot_of_start (h.start hstart)]
    exact walk_refused_mono h.folders (isFolder_of_start hstart) hfault hspot
  | error cause =>
    rw [Disk.spot, hstart] at hspot
    cases hspot
    rw [Disk.spot, h.start_error hfault hstart]

theorem KeepsFolders.refusal?_eq_none {other : Disk} (h : disk.KeepsFolders other)
    (hnone : other.refusal? path = none) : disk.refusal? path = none := by
  rw [Option.eq_none_iff_forall_ne_some]
  intro error herror
  cases hnone.symm.trans (h.refusal? herror)

theorem KeepsFolders.searches {other : Disk} (h : disk.KeepsFolders other)
    (hobject : disk.files.objectAt (route ++ names) = some object) :
    searches other.files route names = searches disk.files route names := by
  induction names generalizing route with
  | nil => rfl
  | cons name rest ih =>
    have hfolder := FileSystem.folder_of_objectAt_append hobject (by simp)
    rw [Disk.searches, Disk.searches, (h.folders hfolder).2, ih (by simpa using hobject)]

/-- What was below a folder and is still there is refused as before. -/
theorem KeepsFolders.refusal?_behind {other : Disk} {present : FileObject}
    (h : disk.KeepsFolders other) (hspot : disk.spot folder = .object route .folder)
    (hobject : disk.files.objectAt (route ++ names) = some object)
    (hpresent : other.files.objectAt (route ++ names) = some present) :
    other.refusal? (folder.behind names) = disk.refusal? (folder.behind names) := by
  rw [Disk.refusal?_behind (h.spot hspot) hpresent, Disk.refusal?_behind hspot hobject,
    h.searches hobject]

/-! ## Finding the content of an entry -/

/-- Whether looking for a file leads to this content. -/
def Finds (disk : Disk) (base : Option Path) (file : Path) (content : Bytes) : Prop :=
  disk.obstacle? base file = none ∧
    ∃ found, disk.resolved? base file = some found ∧ disk.content? found = some content

/-- A file is found at its path as it is. -/
theorem finds_of_content? (h : disk.content? file = some content) :
    disk.Finds base file content := by
  have hfile := hasFile_of_content? h
  refine ⟨?_, file, ?_, h⟩
  · simp [obstacle?, refusal?_of_hasFile hfile, hfile]
  · rw [resolved?, if_pos hfile]

/-- A file that is not at its path as it is may be found below a folder. -/
theorem finds_of_content?_append {folder : Path} (hno : disk.isFile file = .ok false)
    (h : disk.content? (folder.append file) = some content) :
    disk.Finds (some folder) file content := by
  have hfile := hasFile_of_content? h
  obtain ⟨hrefusal, hno⟩ := isFile_eq_ok_iff.1 hno
  refine ⟨?_, folder.append file, ?_, h⟩
  · simp [obstacle?, hrefusal, hno, refusal?_of_hasFile hfile]
  · simp [resolved?, hno, Option.filter, hfile]

/-! ## Reading -/

variable [Java.SourceReader]

/-- The source file that content at a path makes. -/
def sourceOf (path : Path) (content : Bytes) : SourceFile :=
  ⟨path, (FileText.ofBytes content).mended, Java.readSource (FileText.ofBytes content).text⟩

@[simp] theorem path_sourceOf (path : Path) (content : Bytes) :
    (sourceOf path content).path = path := rfl

theorem readSourceFile_of_content (h : disk.content? path = some content) :
    disk.readSourceFile path = .ok (sourceOf path content) := by
  rw [readSourceFile, readText, content?_eq_some_iff.1 h]
  rfl

theorem exists_readSourceFile_error (h : disk.content? path = none) :
    ∃ error, disk.readSourceFile path = .error error := by
  rw [content?] at h
  cases hread : disk.read path with
  | ok content => simp [hread, Except.toOption] at h
  | error error =>
    refine ⟨error, ?_⟩
    rw [readSourceFile, readText, hread]
    rfl

end Disk

end DocGraph
