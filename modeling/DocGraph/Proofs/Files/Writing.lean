import DocGraph.Proofs.Files.Lookup
import DocGraph.Proofs.Files.Written

/-!
# Writing files

A file that is written changes what is at one route and nothing else. Making a folder adds folders
on the way to it, where nothing was before, and leads to that folder from then on. Neither changes
what may be done with anything.

Both need names that can be those of files. A file system is left as it is where an object has no
place in it.
-/

namespace DocGraph

namespace Disk

variable {disk after : Disk} {path folder : Path} {route out : Route} {name : Text}
variable {object : FileObject} {content : Bytes}

/-! ## Objects -/

/-- That a disk comes of another one by putting an object that is no folder at a route. -/
structure Puts (disk after : Disk) (route : Route) (object : FileObject) : Prop where
  cwd : after.cwd = disk.cwd
  access : after.files.access = disk.files.access
  objectAt : ∀ other, after.files.objectAt other =
    if other = route then some object else disk.files.objectAt other
  noFolder : disk.files.objectAt route ≠ some .folder

theorem Puts.keepsFolders (h : disk.Puts after route object) : disk.KeepsFolders after where
  cwd := h.cwd
  folders := by
    intro place hplace
    refine ⟨?_, by rw [h.access]⟩
    rw [h.objectAt, if_neg, hplace]
    rintro rfl
    exact h.noFolder hplace

/-- Whether a text could name a file, but for its size. -/
def isPossibleName (name : Text) : Bool :=
  Path.isWrittenName name && name != Path.up && name.all (· != '\x00')

theorem isPossibleName_of_isWrittenName (hwritten : Path.isWrittenName name = true)
    (hup : name ≠ Path.up) (hnul : '\x00' ∉ name) : isPossibleName name = true := by
  have hchars : name.all (· != '\x00') = true := by
    rw [List.all_eq_true]
    rintro c hc
    rw [bne_iff_ne]
    rintro rfl
    exact hnul hc
  simp [isPossibleName, hwritten, hup, hchars]

theorem isFileName_of_isPossibleName (h : isPossibleName name = true)
    (hsize : Utf8.size name ≤ maxNameSize) : isFileName name = true := by
  simp only [isPossibleName, Path.isWrittenName, Path.keepsName, Bool.and_eq_true,
    List.all_eq_true] at h
  simp only [isFileName, Bool.and_eq_true, List.all_eq_true, decide_eq_true_eq]
  obtain ⟨⟨⟨⟨hempty, hdot⟩, hslash⟩, hup⟩, hnul⟩ := h
  exact ⟨⟨⟨⟨hempty, hdot⟩, hup⟩, fun c hc => ⟨hslash c hc, hnul c hc⟩⟩, hsize⟩

theorem puts_put (object : FileObject) (hname : isFileName name = true)
    (hfolder : disk.files.objectAt out = some .folder)
    (hplace : disk.files.objectAt (out ++ [name]) ≠ some .folder) :
    disk.Puts ⟨disk.files.put out name object, disk.cwd⟩ (out ++ [name]) object where
  cwd := rfl
  access := FileSystem.access_put disk.files out name object
  objectAt := by
    have haccepts : disk.files.accepts out name = true := by
      simp [FileSystem.accepts, hname, hfolder, hplace]
    exact FileSystem.objectAt_put haccepts
  noFolder := hplace

/-! ## Files -/

theorem not_nul_of_isPossibleName (h : isPossibleName name = true) : '\x00' ∉ name := by
  simp only [isPossibleName, Bool.and_eq_true, List.all_eq_true] at h
  intro hmem
  simpa using h.2 _ hmem

theorem ne_up_of_isPossibleName (h : isPossibleName name = true) : name ≠ Path.up := by
  simp only [isPossibleName, Bool.and_eq_true, bne_iff_ne] at h
  exact h.1.2

/-- A name is looked up in a folder by walking on from there, if its path is not too long. -/
theorem spot_child (hspot : disk.spot folder = .object out .folder) (hnul : '\x00' ∉ name) :
    disk.spot (folder.child name) =
      if maxPathSize < Utf8.size (folder.child name).text then .blocked .nameTooLong
      else walk disk.files out [name] := by
  obtain ⟨reached, hstart, hwalk⟩ := exists_walk_of_spot hspot
  have hchild : folder.child name = folder.behind [name] := rfl
  have hbehind := start_behind hstart (List.forall_mem_singleton.2 hnul)
  rw [hchild]
  split
  · next hlong =>
    rw [if_pos hlong] at hbehind
    rw [spot, hbehind]
  · next hshort =>
    rw [if_neg hshort] at hbehind
    exact (spot_of_start hbehind).trans (walk_append hwalk)

theorem of_add {path : Path} (h : disk.add path out name object = .ok after) :
    after = ⟨disk.files.put out name object, disk.cwd⟩ := by
  rw [add] at h
  split at h
  · exact (Except.ok.inj h).symm
  · cases h

/-- Writing to a name in a folder puts the content there, and it is found under that name. -/
theorem puts_of_write (hspot : disk.spot folder = .object out .folder)
    (hname : isPossibleName name = true)
    (h : disk.write (folder.child name) content = .ok after) :
    disk.Puts after (out ++ [name]) (.file content) ∧
      after.spot (folder.child name) = .object (out ++ [name]) (.file content) := by
  have hup := ne_up_of_isPossibleName hname
  have hnul := not_nul_of_isPossibleName hname
  have hfolder := objectAt_of_spot hspot
  rw [write, spot_child hspot hnul] at h
  by_cases hsize : maxPathSize < Utf8.size (folder.child name).text
  · rw [if_pos hsize] at h
    cases h
  rw [if_neg hsize] at h
  by_cases hopen : (disk.files.access out).search = false
  · rw [walk_shut hopen] at h
    cases h
  by_cases hlong : maxNameSize < Utf8.size name
  · rw [walk_long hopen hup hlong] at h
    cases h
  have hfile := isFileName_of_isPossibleName hname (Nat.not_lt.1 hlong)
  have hputs : disk.Puts after (out ++ [name]) (.file content) := by
    cases hthere : disk.files.objectAt (out ++ [name]) with
    | none =>
      rw [walk_vacant hopen hup hlong hthere] at h
      rw [of_add h]
      exact puts_put _ hfile hfolder (by simp [hthere])
    | some object =>
      rw [walk_last hopen hup hlong hthere] at h
      cases object with
      | file old =>
        simp only [List.getLast?_concat, List.dropLast_concat] at h
        split at h
        · cases h
          exact puts_put _ hfile hfolder (by simp [hthere])
        · cases h
      | locked => cases h
      | folder => cases h
  refine ⟨hputs, ?_⟩
  rw [spot_child (hputs.keepsFolders.spot hspot) hnul, if_neg hsize]
  exact walk_last (by rwa [hputs.access]) hup hlong (by rw [hputs.objectAt, if_pos rfl])

/-! ## Folders -/

/-- That a disk comes of another one by making folders along a path where nothing was. -/
structure GainsFolders (disk after : Disk) (path : Path) : Prop where
  cwd : after.cwd = disk.cwd
  access : after.files.access = disk.files.access
  kept : ∀ {place object}, disk.files.objectAt place = some object →
    after.files.objectAt place = some object
  origin : ∀ {place object}, after.files.objectAt place = some object →
    disk.files.objectAt place = some object ∨
      object = .folder ∧ ∃ names, names <+: path.names ∧
        place = Path.routeFrom disk.cwd ⟨path.anchor, names⟩

theorem GainsFolders.refl (disk : Disk) (path : Path) : disk.GainsFolders disk path :=
  ⟨rfl, rfl, id, .inl⟩

theorem GainsFolders.trans {middle : Disk} (hfirst : disk.GainsFolders middle path)
    (hsecond : middle.GainsFolders after path) : disk.GainsFolders after path where
  cwd := hsecond.cwd.trans hfirst.cwd
  access := hsecond.access.trans hfirst.access
  kept := fun hobject => hsecond.kept (hfirst.kept hobject)
  origin := by
    intro place object hobject
    rcases hsecond.origin hobject with hmiddle | ⟨hfolder, names, hnames, hplace⟩
    · exact hfirst.origin hmiddle
    · rw [hfirst.cwd] at hplace
      exact .inr ⟨hfolder, names, hnames, hplace⟩

theorem GainsFolders.keepsFolders (h : disk.GainsFolders after path) : disk.KeepsFolders after :=
  ⟨h.cwd, fun hfolder => ⟨h.kept hfolder, by rw [h.access]⟩⟩

/-- What is gained on the way to the folder around a path is on the way to the path. -/
theorem GainsFolders.of_parent (h : disk.GainsFolders after path.parent) :
    disk.GainsFolders after path where
  cwd := h.cwd
  access := h.access
  kept := h.kept
  origin := by
    intro place object hobject
    rcases h.origin hobject with hold | ⟨hfolder, names, hnames, hplace⟩
    · exact .inl hold
    · exact .inr ⟨hfolder, names, hnames.trans (List.dropLast_prefix _), hplace⟩

/-- That a folder is made, which may have been there. -/
structure Makes (disk after : Disk) (path : Path) : Prop where
  leads : ∃ out, after.spot path = .object out .folder
  gains : disk.GainsFolders after path

/-- The way to a vacant place leads to the folder that is put there. -/
theorem Puts.makes (h : disk.Puts after (out ++ [name]) .folder)
    (hspot : disk.spot path = .vacant out name) : disk.Makes after path := by
  obtain ⟨reached, hstart⟩ := exists_start_of_spot hspot nofun
  rw [spot_of_start hstart] at hspot
  obtain ⟨above, habove, hwalk, hopen, hup, hsize, hnone⟩ := exists_of_walk_vacant hspot
  have hlast : after.files.objectAt (out ++ [name]) = some .folder := by
    rw [h.objectAt, if_pos rfl]
  refine ⟨⟨out ++ [name], ?_⟩, h.cwd, h.access, ?_, ?_⟩
  · rw [spot_of_start (h.keepsFolders.start hstart), habove,
      walk_append (walk_folder_mono h.keepsFolders.folders (isFolder_of_start hstart) hwalk)]
    exact walk_last (by rwa [h.access]) hup hsize hlast
  · intro place object hobject
    rw [h.objectAt, if_neg, hobject]
    rintro rfl
    rw [hnone] at hobject
    cases hobject
  · intro place object hobject
    rw [h.objectAt] at hobject
    split at hobject
    · next hplace =>
      cases hobject
      obtain ⟨-, -, rfl, -⟩ := start_eq_ok_iff.1 hstart
      exact .inr ⟨rfl, path.names, List.prefix_rfl, hplace.trans (route_of_walk_vacant hspot)⟩
    · exact .inl hobject

theorem makes_of_makeFolder (hwritten : path.IsWritten) (h : disk.makeFolder path = .ok after) :
    disk.Makes after path := by
  rw [makeFolder] at h
  cases hspot : disk.spot path with
  | object route object =>
    rw [hspot] at h
    cases h
  | blocked fault =>
    rw [hspot] at h
    cases h
  | vacant out name =>
    simp only [hspot] at h
    obtain ⟨reached, hstart⟩ := exists_start_of_spot hspot nofun
    have hnul := (start_eq_ok_iff.1 hstart).1
    obtain ⟨above, habove, hwalk, -, hup, hsize, hnone⟩ :=
      exists_of_walk_vacant ((spot_of_start hstart).symm.trans hspot)
    have hmem : name ∈ path.names := by
      rw [habove]
      exact List.mem_append_right _ List.mem_cons_self
    have hpossible :=
      isPossibleName_of_isWrittenName (hwritten name hmem) hup (hnul name hmem)
    have hname := isFileName_of_isPossibleName hpossible (Nat.not_lt.1 hsize)
    have hfolder := objectAt_of_walk (isFolder_of_start hstart) hwalk
    rw [of_add h]
    exact (puts_put .folder hname hfolder (by simp [hnone])).makes hspot

theorem makes_of_ensureFolder (hwritten : path.IsWritten)
    (h : disk.ensureFolder path = .ok after) : disk.Makes after path := by
  rw [ensureFolder] at h
  split at h
  · next made hmade =>
    cases h
    exact makes_of_makeFolder hwritten hmade
  · next hthere =>
    cases h
    exact ⟨isFolder_eq_true_iff.1 hthere, .refl disk path⟩
  · cases h

theorem makes_of_makeFoldersWithin {depth : Nat} (hwritten : path.IsWritten)
    (h : disk.makeFoldersWithin path depth = (after, none)) : disk.Makes after path := by
  induction depth generalizing path after with
  | zero =>
    rw [makeFoldersWithin] at h
    split at h
    · next made hmade =>
      cases h
      exact makes_of_ensureFolder hwritten hmade
    · cases h
  | succ depth ih =>
    rw [makeFoldersWithin] at h
    split at h
    · next made hmade =>
      cases h
      exact makes_of_ensureFolder hwritten hmade
    split at h
    · split at h
      · cases h
      · next middle hparent =>
        split at h
        · next made hmade =>
          cases h
          have hparentWritten : path.parent.IsWritten := fun name hname =>
            hwritten name (List.dropLast_subset _ hname)
          have hfirst := (ih hparentWritten hparent).gains.of_parent
          have hsecond := makes_of_ensureFolder hwritten hmade
          exact ⟨hsecond.leads, hfirst.trans hsecond.gains⟩
        · cases h
    · cases h

/-- Making a folder with all around it leads to that folder and adds nothing but folders. -/
theorem makes_of_makeFolders (hwritten : path.IsWritten)
    (h : disk.makeFolders path = (after, none)) : disk.Makes after path :=
  makes_of_makeFoldersWithin hwritten h

end Disk

end DocGraph
