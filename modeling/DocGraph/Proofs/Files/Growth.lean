import DocGraph.Proofs.Files.Lookup
import DocGraph.Proofs.Files.Written

/-!
# Growing file systems

A file system grows when it gains a file, together with the folders on the way to it that it does
not have yet. All that was there stays, and so does what may be done with it: a path that led
somewhere leads there still, and one that was refused is refused still.

The converse holds where only the file is new. A new folder may open a way to what was there before,
as two dots lead back out of it.
-/

namespace DocGraph

namespace FileSystem

/-- That a file system grows by a file at a route and by nothing that is not on the way to it. -/
structure Gains (files grown : FileSystem) (route : Route) (content : Bytes) : Prop where
  fresh : files.objectAt route = none
  added : grown.objectAt route = some (.file content)
  kept : ∀ {other object}, files.objectAt other = some object →
    grown.objectAt other = some object
  access : ∀ {other object}, files.objectAt other = some object →
    grown.access other = files.access other
  origin : ∀ {other object}, grown.objectAt other = some object →
    files.objectAt other = some object ∨ other <+: route

variable {files grown : FileSystem} {route folder : Route} {name : Text} {content : Bytes}

theorem objectAt_put_of_some {object present : FileObject} {other : Route}
    (haccepts : files.accepts folder name = true)
    (hfresh : files.objectAt (folder ++ [name]) = none) (h : files.objectAt other = some object) :
    (files.put folder name present).objectAt other = some object := by
  have hne : other ≠ folder ++ [name] := by
    rintro rfl
    simp [hfresh] at h
  rw [objectAt_put haccepts, if_neg hne, h]

/-- A file is gained by putting it in a folder where nothing has its name. -/
theorem gains_put (haccepts : files.accepts folder name = true)
    (hfresh : files.objectAt (folder ++ [name]) = none) :
    files.Gains (files.put folder name (.file content)) (folder ++ [name]) content where
  fresh := hfresh
  added := by rw [objectAt_put haccepts, if_pos rfl]
  kept := objectAt_put_of_some haccepts hfresh
  access := fun _ => by rw [access_put]
  origin := by
    intro other object hobject
    rw [objectAt_put haccepts] at hobject
    split at hobject
    · next heq => exact .inr (heq ▸ List.prefix_rfl)
    · exact .inl hobject

/-- A folder on the way may be created first. -/
theorem Gains.of_put_folder (haccepts : files.accepts folder name = true)
    (hfresh : files.objectAt (folder ++ [name]) = none)
    (h : (files.put folder name .folder).Gains grown route content)
    (hway : folder ++ [name] <+: route) : files.Gains grown route content where
  fresh := by
    have hroute := h.fresh
    rw [objectAt_put haccepts] at hroute
    split at hroute
    · cases hroute
    · exact hroute
  added := h.added
  kept := fun hobject => h.kept (objectAt_put_of_some haccepts hfresh hobject)
  access := fun hobject => by
    rw [h.access (objectAt_put_of_some haccepts hfresh hobject), access_put]
  origin := by
    intro other object hobject
    rcases h.origin hobject with hput | hother
    · rw [objectAt_put haccepts] at hput
      split at hput
      · next heq => exact .inr (heq ▸ hway)
      · exact .inl hput
    · exact .inr hother

/-- Nothing but the file is new if its folder was there. -/
theorem Gains.origin_of_folder (h : files.Gains grown route content)
    (hfolder : files.objectAt route.dropLast = some .folder) {other : Route} {object : FileObject}
    (hother : grown.objectAt other = some object) (hne : other ≠ route) :
    files.objectAt other = some object := by
  rcases h.origin hother with hold | ⟨below, rfl⟩
  · exact hold
  · have hbelow : below ≠ [] := fun hnil => hne (by rw [hnil, List.append_nil])
    rw [List.dropLast_append_of_ne_nil hbelow] at hfolder
    -- What lies on the way to a folder is itself one, before as after.
    have hold : files.objectAt other = some .folder := by
      by_cases hlast : below.dropLast = []
      · rwa [hlast, List.append_nil] at hfolder
      · exact folder_of_objectAt_append hfolder hlast
    rw [hold, ← h.kept hold, hother]

end FileSystem

/-- The two places where a file is looked for: at its path as it is, and below a folder. -/
def Path.candidates (base : Option Path) (file : Path) : List Path :=
  file :: (base.map (·.append file)).toList

namespace Disk

open FileSystem (Gains)

variable {files grown : FileSystem} {route reached place cwd : Route} {content : Bytes}
variable {names : List Text} {object : FileObject} {path file : Path} {base : Option Path}

theorem keepsFolders_of_gains (h : files.Gains grown route content) :
    (⟨files, cwd⟩ : Disk).KeepsFolders ⟨grown, cwd⟩ :=
  ⟨rfl, fun hfolder => ⟨h.kept hfolder, h.access hfolder⟩⟩

/-- No folder is new if the one of the file was there. -/
theorem keepsFolders_before_gains (h : files.Gains grown route content)
    (hfolder : files.objectAt route.dropLast = some .folder) :
    (⟨grown, cwd⟩ : Disk).KeepsFolders ⟨files, cwd⟩ where
  cwd := rfl
  folders := by
    intro place hplace
    have hold : files.objectAt place = some .folder := by
      refine h.origin_of_folder hfolder hplace ?_
      rintro rfl
      cases h.added.symm.trans hplace
    exact ⟨hold, (h.access hold).symm⟩

/-- What lies on the way to an object that can be looked up can be looked up as well. -/
theorem refusal?_of_prefix {disk : Disk} {folder : Path} {below present : FileObject}
    {inner : Route} (hspot : disk.spot folder = .object route .folder)
    (hbelow : disk.files.objectAt (route ++ names) = some below)
    (hpresent : disk.files.objectAt (route ++ inner) = some present) (hinitial : inner <+: names)
    (hrefusal : disk.refusal? (folder.behind names) = none) :
    disk.refusal? (folder.behind inner) = none := by
  have hsize : Utf8.size (folder.behind inner).text ≤ Utf8.size (folder.behind names).text :=
    Path.size_text_le (.inr rfl) ((List.Sublist.refl _).append hinitial.sublist)
  rw [refusal?_behind hspot hbelow] at hrefusal
  split at hrefusal
  · cases hrefusal
  · next hshort =>
    split at hrefusal
    · next hsearches =>
      rw [searches_iff] at hsearches
      rw [refusal?_behind hspot hpresent, if_neg (by omega), if_pos]
      exact searches_iff.2 fun above name habove => hsearches above name (habove.trans hinitial)
    · cases hrefusal

/-! ## Walks -/

theorem walk_of_gains (h : files.Gains grown route content)
    (hreached : files.objectAt reached = some .folder)
    (hwalk : walk files reached names = .object place object) :
    walk grown reached names = .object place object := by
  fun_induction walk files reached names with
  | case1 reached => exact hwalk
  | case3 reached rest hopen ih =>
    rw [walk_up (by rwa [h.access hreached])]
    exact ih (FileSystem.folder_dropLast hreached) hwalk
  | case5 reached name hopen hup hsize rest hfolder ih =>
    rw [walk_into (by rwa [h.access hreached]) hup hsize (h.kept hfolder)]
    exact ih hfolder hwalk
  | case6 reached name hopen hup hsize last hfolder hlast =>
    rw [walk_last (by rwa [h.access hreached]) hup hsize (h.kept hlast), ← hwalk]
  | case2 | case4 | case7 | case8 | case9 => cases hwalk

/-- A walk that does not end at the file enters no folder that was not there, if only the file is
new. -/
theorem walk_before_gains (h : files.Gains grown route content)
    (hfolder : files.objectAt route.dropLast = some .folder)
    (hreached : grown.objectAt reached = some .folder)
    (hwalk : walk grown reached names = .object place object) (hne : place ≠ route) :
    walk files reached names = .object place object := by
  have hbefore : ∀ {place}, grown.objectAt place = some .folder →
      files.objectAt place = some .folder ∧ files.access place = grown.access place :=
    (@keepsFolders_before_gains _ _ _ reached _ h hfolder).folders
  fun_induction walk grown reached names with
  | case1 reached => exact hwalk
  | case3 reached rest hopen ih =>
    rw [walk_up (by rwa [(hbefore hreached).2])]
    exact ih (FileSystem.folder_dropLast hreached) hwalk
  | case5 reached name hopen hup hsize rest hthere ih =>
    rw [walk_into (by rwa [(hbefore hreached).2]) hup hsize (hbefore hthere).1]
    exact ih hthere hwalk
  | case6 reached name hopen hup hsize last hlast hthere =>
    cases hwalk
    exact walk_last (by rwa [(hbefore hreached).2]) hup hsize
      (h.origin_of_folder hfolder hthere hne)
  | case2 | case4 | case7 | case8 | case9 => cases hwalk

/-! ## Paths -/

theorem spot_of_gains (h : files.Gains grown route content)
    (hspot : (⟨files, cwd⟩ : Disk).spot path = .object place object) :
    (⟨grown, cwd⟩ : Disk).spot path = .object place object := by
  obtain ⟨reached, hstart, hwalk⟩ := exists_walk_of_spot hspot
  rw [spot_of_start ((keepsFolders_of_gains h).start hstart)]
  exact walk_of_gains h (isFolder_of_start hstart) hwalk

theorem hasFile_of_gains (h : files.Gains grown route content)
    (hfile : (⟨files, cwd⟩ : Disk).hasFile path = true) :
    (⟨grown, cwd⟩ : Disk).hasFile path = true := by
  obtain ⟨place, object, hspot, hobject⟩ := hasFile_iff.1 hfile
  exact hasFile_iff.2 ⟨place, object, spot_of_gains h hspot, hobject⟩

/-- The content of a file that was there stays as it is. -/
theorem content?_of_gains (h : files.Gains grown route content)
    (hfile : (⟨files, cwd⟩ : Disk).hasFile path = true) :
    (⟨grown, cwd⟩ : Disk).content? path = (⟨files, cwd⟩ : Disk).content? path := by
  obtain ⟨place, object, hspot, -⟩ := hasFile_iff.1 hfile
  ext bytes
  rw [content?_eq_some_iff, content?_eq_some_iff, read_eq_ok_iff, read_eq_ok_iff, hspot,
    spot_of_gains h hspot]
  refine exists_congr fun other => and_congr_right fun hsame => ?_
  cases hsame
  rw [h.access (objectAt_of_spot hspot)]

/-! ## Finding files -/

/-- Only a path to the new file is answered otherwise, if no folder is new. -/
theorem isFile_of_gains (h : files.Gains grown route content)
    (hfolder : files.objectAt route.dropLast = some .folder)
    (hpath : ∀ object, (⟨grown, cwd⟩ : Disk).spot path ≠ .object route object) :
    (⟨grown, cwd⟩ : Disk).isFile path = (⟨files, cwd⟩ : Disk).isFile path := by
  have hbefore := @keepsFolders_before_gains _ _ _ cwd _ h hfolder
  cases hrefusal : (⟨grown, cwd⟩ : Disk).refusal? path with
  | some error =>
    rw [isFile_of_refusal? hrefusal, isFile_of_refusal? (hbefore.refusal? hrefusal)]
  | none =>
    have hold := (@keepsFolders_of_gains _ _ _ cwd _ h).refusal?_eq_none hrefusal
    rw [isFile_eq_hasFile hrefusal, isFile_eq_hasFile hold, Except.ok.injEq, Bool.eq_iff_iff]
    refine ⟨fun hfile => ?_, hasFile_of_gains h⟩
    obtain ⟨place, object, hspot, hobject⟩ := hasFile_iff.1 hfile
    have hne : place ≠ route := by
      rintro rfl
      exact hpath object hspot
    obtain ⟨reached, hstart, hwalk⟩ := exists_walk_of_spot hspot
    refine hasFile_iff.2 ⟨place, object, ?_, hobject⟩
    rw [spot_of_start (hbefore.start hstart)]
    exact walk_before_gains h hfolder (isFolder_of_start hstart) hwalk hne

theorem locate_of_gains (h : files.Gains grown route content)
    (hfolder : files.objectAt route.dropLast = some .folder)
    (hpaths : ∀ path ∈ Path.candidates base file, ∀ object,
      (⟨grown, cwd⟩ : Disk).spot path ≠ .object route object) :
    (⟨grown, cwd⟩ : Disk).locate base file = (⟨files, cwd⟩ : Disk).locate base file := by
  have hfirst := isFile_of_gains h hfolder (hpaths file List.mem_cons_self)
  unfold locate
  rw [hfirst]
  cases base with
  | none => rfl
  | some base =>
    have hsecond := isFile_of_gains h hfolder
      (hpaths (base.append file) (by simp [Path.candidates]))
    simp only [hsecond]

theorem obstacle?_congr {first second : Disk}
    (h : first.locate base file = second.locate base file) :
    first.obstacle? base file = second.obstacle? base file := by
  cases hfirst : first.obstacle? base file with
  | some error =>
    cases hsecond : second.obstacle? base file with
    | some other =>
      rw [locate_of_obstacle hfirst, locate_of_obstacle hsecond] at h
      cases h
      rfl
    | none =>
      rw [locate_of_obstacle hfirst, locate_eq_resolved hsecond] at h
      cases h
  | none =>
    cases hsecond : second.obstacle? base file with
    | some other =>
      rw [locate_eq_resolved hfirst, locate_of_obstacle hsecond] at h
      cases h
    | none => rfl

theorem resolved?_congr {first second : Disk} (h : first.locate base file = second.locate base file)
    (hobstacle : second.obstacle? base file = none) :
    first.resolved? base file = second.resolved? base file := by
  have hfirst := (obstacle?_congr h).trans hobstacle
  rw [locate_eq_resolved hfirst, locate_eq_resolved hobstacle] at h
  exact Except.ok.inj h

theorem hasFile_of_resolved? {disk : Disk} (h : disk.resolved? base file = some path) :
    disk.hasFile path = true := by
  rw [resolved?] at h
  split at h
  · next hfile =>
    cases h
    exact hfile
  · exact (Option.filter_eq_some_iff.1 h).2

end Disk

end DocGraph
