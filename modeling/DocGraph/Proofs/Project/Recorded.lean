import DocGraph.Project.Scan
import DocGraph.Proofs.Files.Written
import DocGraph.Proofs.Project.Listing

/-!
# Recorded paths

A scan records for each source file a path that reads back as it was: the one that the file was
found at, or the names behind the base folder. The first kind leads to the file from where the scan
was started. The second one leads there from the base folder, if that is the working directory, or
its path can be walked and the file can be looked up behind it.

Walking is not the same as following the text of a path: with two dots behind the name of nothing,
the text still leads to a folder.
-/

namespace DocGraph

namespace Disk

/-- Whether nothing but its last name may be missing along a path. -/
def isWalkable (disk : Disk) (path : Path) : Bool :=
  match disk.spot path with
  | .blocked _ => false
  | _ => true

/-- Whether a path stands for the working directory, and that is a folder. -/
def isHere (disk : Disk) (path : Path) : Prop :=
  path.routeFrom disk.cwd = disk.cwd ∧ disk.files.objectAt disk.cwd = some .folder

variable {disk : Disk} {folder file : Path} {route reached target names inner : Route}
variable {object : FileObject} {content : Bytes}

/-! ## Below a folder -/

/-- Following names keeps some of the route in front and some of the names behind. -/
theorem exists_split_follow (names reached : List Text) :
    ∃ front kept, front <+: reached ∧ kept.Sublist names ∧
      names.foldl Path.follow reached = front ++ kept := by
  induction names generalizing reached with
  | nil => exact ⟨reached, [], List.prefix_rfl, List.Sublist.refl _, (List.append_nil _).symm⟩
  | cons name rest ih =>
    obtain ⟨front, kept, hfront, hkept, hroute⟩ := ih (Path.follow reached name)
    rw [List.foldl_cons, hroute]
    rw [Path.follow] at hfront
    split at hfront
    · exact ⟨front, kept, hfront.trans (List.dropLast_prefix _), hkept.cons _, rfl⟩
    · rcases List.prefix_concat_iff.1 hfront with rfl | hbefore
      · exact ⟨reached, name :: kept, List.prefix_rfl, hkept.cons_cons _,
          by rw [List.append_assoc, List.singleton_append]⟩
      · exact ⟨front, kept, hbefore, hkept.cons _, rfl⟩

/-- Every path to what lies below the working directory has the names that lead there. -/
theorem sublist_of_spot (h : disk.spot file = .object (disk.cwd ++ names) object) :
    names.Sublist file.names := by
  obtain ⟨front, kept, hfront, hkept, hroute⟩ :=
    exists_split_follow file.names (if file.isAbsolute then [] else disk.cwd)
  have hcwd : front <+: disk.cwd := by
    split at hfront
    · rw [List.prefix_nil.1 hfront]
      exact List.nil_prefix
    · exact hfront
  obtain ⟨middle, hmiddle⟩ := hcwd
  have hsame : disk.cwd ++ names = front ++ kept := (routeFrom_of_spot h).trans hroute
  rw [← hmiddle, List.append_assoc, List.append_cancel_left_eq] at hsame
  rw [← hsame] at hkept
  exact (List.sublist_append_right middle names).trans hkept

/-- What lies below the working directory and is found by some path is found by its names. -/
theorem spot_here (hcwd : disk.files.objectAt disk.cwd = some .folder)
    (h : disk.spot file = .object (disk.cwd ++ names) object) (hne : names ≠ []) :
    disk.spot ⟨.here, names⟩ = .object (disk.cwd ++ names) object := by
  have hobject := objectAt_of_spot h
  obtain ⟨reached, hstart, hwalk⟩ := exists_walk_of_spot h
  obtain ⟨-, hsize, rfl, -⟩ := start_eq_ok_iff.1 hstart
  have hsearch : ∀ above name, above ++ [name] <+: names →
      (disk.files.access (disk.cwd ++ above)).search = true := by
    intro above name habove
    have hroute : (disk.cwd ++ above) ++ [name] <+: disk.cwd ++ names := by
      rwa [List.append_assoc, List.prefix_append_right_inj]
    refine search_of_walk hwalk hroute fun hreached => ?_
    have hlength := hreached.length_le
    simp only [List.length_append, List.length_singleton] at hlength
    split at hlength
    · simp at hlength
    · omega
  have hhere : disk.start ⟨.here, names⟩ = .ok disk.cwd := by
    refine start_eq_ok_iff.2 ⟨fun name hname => ?_, ?_, rfl, fun _ => ⟨hcwd, ?_⟩⟩
    · exact not_nul_of_isFileName
        (FileSystem.isFileName_of_mem hobject (List.mem_append_right _ hname))
    · exact (Path.size_text_le (.inl rfl) (sublist_of_spot h)).trans hsize
    · obtain ⟨name, rest, rfl⟩ := List.exists_cons_of_ne_nil hne
      have hfirst := hsearch [] name (List.cons_prefix_cons.2 ⟨rfl, List.nil_prefix⟩)
      rwa [List.append_nil] at hfirst
  rw [spot_of_start hhere, walk_of_objectAt hobject hne, if_pos (searches_iff.2 hsearch)]

/-- Below a folder that can be walked to lies what its text says, if it can be looked up. -/
theorem spot_append (hwalk : disk.isWalkable folder = true)
    (hrefusal : disk.refusal? (folder.append ⟨.here, inner⟩) = none)
    (hobject : disk.files.objectAt (folder.routeFrom disk.cwd ++ inner) = some object) :
    disk.spot (folder.append ⟨.here, inner⟩) =
      .object (folder.routeFrom disk.cwd ++ inner) object := by
  have happend : folder.append ⟨.here, inner⟩ = folder.behind inner := rfl
  rw [happend] at hrefusal ⊢
  cases hspot : disk.spot folder with
  | object route above =>
    have hroute := routeFrom_of_spot hspot
    have habove := objectAt_of_spot hspot
    rw [← hroute] at hobject ⊢
    by_cases hinner : inner = []
    · subst hinner
      rw [List.append_nil] at hobject ⊢
      rw [behind_nil, hspot, Option.some.inj (habove.symm.trans hobject)]
    · have hfolder := FileSystem.folder_of_objectAt_append hobject hinner
      rw [habove] at hfolder
      rw [Option.some.inj hfolder] at hspot
      exact spot_behind_of_not_refused hspot hobject hrefusal
  | vacant above name =>
    obtain ⟨reached, hstart⟩ := exists_start_of_spot hspot nofun
    rw [spot_of_start hstart] at hspot
    obtain ⟨-, -, rfl, -⟩ := start_eq_ok_iff.1 hstart
    have hnone : disk.files.objectAt (folder.routeFrom disk.cwd) = none := vacant_of_walk hspot
    by_cases hinner : inner = []
    · rw [hinner, List.append_nil, hnone] at hobject
      cases hobject
    · rw [FileSystem.folder_of_objectAt_append hobject hinner] at hnone
      cases hnone
  | blocked fault => simp [isWalkable, hspot] at hwalk

/-- Whatever path a readable file is found at, its content is read there. -/
theorem content?_of_spot (h : disk.spot file = .object target (.file content))
    (hread : (disk.files.access target).read = true) : disk.content? file = some content :=
  content?_eq_some_iff.2 (read_eq_ok_iff.2 ⟨target, h, hread⟩)

end Disk

variable {disk : Disk} {folder file : Path} {base : Option Path} {patterns : List Text}
variable {source : SourceFile} {target : Route} {object : FileObject} {content : Bytes}

/-! ## The files of a scan -/

section

variable [Java.SourceReader]

/-- A source file of a scan is at a path behind its folder. -/
theorem exists_of_mem_sourcesBelow (h : source ∈ sourcesBelow disk folder patterns) :
    ∃ names target content, source = Disk.sourceOf (folder.behind names) content ∧
      disk.spot (folder.behind names) = .object target (.file content) ∧
      (disk.files.access target).read = true ∧ ∀ name ∈ names, isFileName name = true := by
  obtain ⟨names, content, ⟨⟨route, -, hobject, -⟩, hreadable, -, -⟩, rfl⟩ :=
    mem_sourcesBelow_iff.1 h
  obtain ⟨target, hspot, hread⟩ := Disk.read_eq_ok_iff.1 hreadable
  exact ⟨names, target, content, rfl, hspot, hread,
    fun name hname => FileSystem.isFileName_of_mem hobject (List.mem_append_right _ hname)⟩

end

/-! ## The paths that are recorded -/

/-- A recorded path is the path of the file, or what is behind the base folder. -/
theorem recordedPath_cases (h : disk.spot file = .object target object) :
    recordedPath disk base file = file ∨
    ∃ folder inner, base = some folder ∧ target = folder.routeFrom disk.cwd ++ inner ∧
      recordedPath disk base file = ⟨.here, inner⟩ := by
  cases base with
  | none => exact .inl rfl
  | some folder =>
    by_cases hnul : folder.names.any (·.elem '\x00') = true
    · exact .inl (if_pos hnul)
    simp only [recordedPath, if_neg hnul]
    have hroute := Disk.routeFrom_of_spot h
    cases hafter : Path.namesAfter? (folder.routeFrom disk.cwd) target with
    | none =>
      left
      rw [hroute] at hafter
      simp [Path.relativeTo?, Path.resolve, Path.ofRoute, hafter]
    | some inner =>
      right
      refine ⟨folder, inner, rfl, Path.namesAfter?_eq_some_iff.1 hafter, ?_⟩
      rw [hroute] at hafter
      simp [Path.relativeTo?, Path.resolve, Path.ofRoute, hafter]

/-- The path of an entry of a scan reads back as the one that was recorded. -/
theorem ofText_displayName (hwritten : file.IsWritten) (h : disk.spot file = .object target object)
    (hnames : ∀ name ∈ target, isFileName name = true) :
    Path.ofText (displayName disk base file) = recordedPath disk base file := by
  apply Path.ofText_text
  rcases @recordedPath_cases disk file base target object h with hfile |
      ⟨folder, inner, -, htarget, hinner⟩
  · rw [hfile]
    exact hwritten
  · rw [hinner]
    intro name hname
    rw [htarget] at hnames
    exact Path.isWrittenName_of_isFileName (hnames name (List.mem_append_right _ hname))

variable [Java.SourceReader]

theorem ofText_displayName_of_mem (hsource : source ∈ sourcesBelow disk folder patterns)
    (hwritten : folder.IsWritten) (relativeTo : Option Path) :
    Path.ofText (displayName disk relativeTo source.path) =
      recordedPath disk relativeTo source.path := by
  obtain ⟨names, target, content, rfl, hspot, -, hnames⟩ := exists_of_mem_sourcesBelow hsource
  refine ofText_displayName ?_ hspot fun name hname =>
    FileSystem.isFileName_of_mem (Disk.objectAt_of_spot hspot) hname
  intro name hname
  rcases List.mem_append.1 hname with hname | hname
  · exact hwritten name hname
  · exact Path.isWrittenName_of_isFileName (hnames name hname)

/-- The file of a scan is found again under its recorded path: from the base folder itself, or else
where its path is recorded as it is or leads there from the base folder, and nowhere else before. -/
theorem finds_recorded {base : Path} {relativeTo : Option Path}
    (hsource : source ∈ sourcesBelow disk folder patterns) (hwritten : folder.IsWritten)
    (hrelative : relativeTo = none ∨ relativeTo = some base)
    (hplace : disk.isHere base ∨
      ((recordedPath disk relativeTo source.path).isAbsolute = false →
        disk.isWalkable base = true ∧
          disk.isFile (recordedPath disk relativeTo source.path) = .ok false ∧
          disk.refusal? (base.append (recordedPath disk relativeTo source.path)) = none)) :
    ∃ content, source = Disk.sourceOf source.path content ∧
      disk.Finds (some base) (Path.ofText (displayName disk relativeTo source.path)) content := by
  rw [ofText_displayName_of_mem hsource hwritten]
  obtain ⟨names, target, content, rfl, hspot, hread, -⟩ := exists_of_mem_sourcesBelow hsource
  refine ⟨content, rfl, ?_⟩
  rw [Disk.path_sourceOf] at hplace ⊢
  rcases @recordedPath_cases disk _ relativeTo _ _ hspot with hrecorded |
      ⟨other, inner, hother, hbehind, hrecorded⟩
  · -- The path is recorded as it is, and there it is found.
    rw [hrecorded]
    exact Disk.finds_of_content? (Disk.content?_of_spot hspot hread)
  · have hsame : other = base := by
      rcases hrelative with hnone | hsome
      · rw [hnone] at hother
        cases hother
      · rw [hsome] at hother
        exact (Option.some.inj hother).symm
    subst hsame
    rw [hrecorded]
    rcases hplace with ⟨hroute, hfolder⟩ | hbelow
    · -- From the base folder itself, the names lead to the file.
      rw [hbehind, hroute] at hspot
      have hne : inner ≠ [] := by
        rintro rfl
        have hobject := Disk.objectAt_of_spot hspot
        rw [List.append_nil, hfolder] at hobject
        cases hobject
      rw [hbehind, hroute] at hread
      exact Disk.finds_of_content?
        (Disk.content?_of_spot (Disk.spot_here hfolder hspot hne) hread)
    · obtain ⟨hwalk, hno, hrefusal⟩ := hbelow (by rw [hrecorded]; rfl)
      rw [hrecorded] at hno hrefusal
      have hobject := Disk.objectAt_of_spot hspot
      rw [hbehind] at hobject hread
      exact Disk.finds_of_content?_append hno
        (Disk.content?_of_spot (Disk.spot_append hwalk hrefusal hobject) hread)

end DocGraph
