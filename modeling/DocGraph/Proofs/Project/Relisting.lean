import DocGraph.Proofs.Project.Listing

/-!
# Listing a folder again

What a listing meets and what refuses it depends on the folders, on what may be done with them and
on which names lead to something. So on a disk that keeps the folders, whatever was below one of
them and is still there is met as before, and it is a source file as before if the file is the same.
The listing is refused as before if what has come is not refused.

A file that is locked is the simplest case. It is still met, and no source file any more.
-/

namespace DocGraph

variable {disk other : Disk} {folder : Path} {patterns : List Text} {root route names : Route}
variable {object : FileObject} {content : Bytes} {parts : List EndingPart}

namespace Disk.KeepsFolders

/-- What could be listed below a folder can be listed still, and nothing else. -/
theorem lists (h : disk.KeepsFolders other) (hspot : disk.spot folder = .object root .folder)
    (hfolder : disk.files.objectAt (root ++ names) = some .folder) :
    other.lists (folder.behind names) = disk.lists (folder.behind names) := by
  cases hrefusal : disk.refusal? (folder.behind names) with
  | none =>
    have hthere := spot_behind_of_not_refused hspot hfolder hrefusal
    simp only [Disk.lists, hthere, h.spot hthere, (h.folders hfolder).2]
  | some error =>
    obtain ⟨fault, hblocked, -⟩ := refusal?_eq_some_iff.1 hrefusal
    obtain ⟨cause, hblocked', -⟩ := refusal?_eq_some_iff.1 (h.refusal? hrefusal)
    rw [Disk.lists, Disk.lists, hblocked, hblocked']

theorem sees (h : disk.KeepsFolders other) (hspot : disk.spot folder = .object root .folder)
    (hobject : disk.files.objectAt (root ++ names) = some object) :
    other.sees folder names = disk.sees folder names := by
  rw [Bool.eq_iff_iff, sees_iff, sees_iff]
  have hlists : ∀ above name, above ++ [name] <+: names →
      other.lists (folder.behind above) = disk.lists (folder.behind above) := by
    rintro above name ⟨below, rfl⟩
    refine h.lists hspot ?_
    rw [List.append_assoc above, ← List.append_assoc] at hobject
    exact FileSystem.folder_of_objectAt_append hobject (by simp)
  exact forall₃_congr fun above name hinitial => by rw [hlists above name hinitial]

theorem mem_seenNames_iff (h : disk.KeepsFolders other)
    (hspot : disk.spot folder = .object root .folder) {present : FileObject}
    (hobject : disk.files.objectAt (root ++ names) = some object)
    (hpresent : other.files.objectAt (root ++ names) = some present) :
    names ∈ seenNames other folder root ↔ names ∈ seenNames disk folder root := by
  rw [DocGraph.mem_seenNames_iff, DocGraph.mem_seenNames_iff, h.sees hspot hobject, hobject,
    hpresent]
  simp

/-- The same file is a source file as before. -/
theorem isSource_iff (h : disk.KeepsFolders other)
    (hspot : disk.spot folder = .object root .folder)
    (hobject : other.files.objectAt (root ++ names) = disk.files.objectAt (root ++ names))
    (haccess : other.files.access (root ++ names) = disk.files.access (root ++ names)) :
    IsSource other folder patterns names content ↔
      IsSource disk folder patterns names content := by
  rw [DocGraph.isSource_iff (h.spot hspot), DocGraph.isSource_iff hspot, hobject, haccess]
  refine and_congr_right fun hthere => ?_
  rw [h.sees hspot hthere, h.refusal?_behind hspot hthere (hobject.trans hthere)]

end Disk.KeepsFolders

/-- That whatever was below a folder is still there, files in place of files, and that all that has
come can be looked up. -/
structure Disk.KeepsBelow (disk other : Disk) (folder : Path) (root : Route) : Prop where
  keeps : disk.KeepsFolders other
  spot : disk.spot folder = .object root .folder
  kept : ∀ {names object}, disk.files.objectAt (root ++ names) = some object →
    ∃ present, other.files.objectAt (root ++ names) = some present ∧
      (present = .folder → object = .folder)
  news : ∀ {names present}, disk.files.objectAt (root ++ names) = none →
    other.files.objectAt (root ++ names) = some present →
      other.refusal? (folder.behind names) = none

namespace Disk.KeepsBelow

theorem overlongNames_eq (h : disk.KeepsBelow other folder root) :
    overlongNames other folder root = overlongNames disk folder root := by
  refine eq_of_ascending (overlongNames_ascending other folder root)
    (overlongNames_ascending disk folder root) fun names => ?_
  rw [mem_overlongNames_iff, mem_overlongNames_iff]
  constructor
  · rintro ⟨hmem, hpresent, hlong⟩
    cases hold : disk.files.objectAt (root ++ names) with
    | none =>
      have hrefusal := h.news hold hpresent
      rw [Disk.refusal?_behind (h.keeps.spot h.spot) hpresent, if_pos hlong] at hrefusal
      cases hrefusal
    | some object =>
      obtain ⟨present, hsame, hfolder⟩ := h.kept hold
      cases hpresent.symm.trans hsame
      exact ⟨(h.keeps.mem_seenNames_iff h.spot hold hpresent).1 hmem, congrArg some (hfolder rfl),
        hlong⟩
  · rintro ⟨hmem, hold, hlong⟩
    have hpresent := (h.keeps.folders hold).1
    exact ⟨(h.keeps.mem_seenNames_iff h.spot hold hpresent).2 hmem, hpresent, hlong⟩

theorem refusedNames_eq (h : disk.KeepsBelow other folder root) (parts : List EndingPart) :
    refusedNames other folder root parts = refusedNames disk folder root parts := by
  refine eq_of_ascending (refusedNames_ascending other folder root parts)
    (refusedNames_ascending disk folder root parts) ?_
  rintro ⟨names, error⟩
  rw [mem_refusedNames_iff, mem_refusedNames_iff]
  constructor
  · rintro ⟨hmem, hfits, hrefusal⟩
    obtain ⟨-, ⟨present, hpresent⟩, -⟩ := mem_seenNames_iff.1 hmem
    cases hold : disk.files.objectAt (root ++ names) with
    | none => cases (h.news hold hpresent).symm.trans hrefusal
    | some object =>
      rw [h.keeps.refusal?_behind h.spot hold hpresent] at hrefusal
      exact ⟨(h.keeps.mem_seenNames_iff h.spot hold hpresent).1 hmem, hfits, hrefusal⟩
  · rintro ⟨hmem, hfits, hrefusal⟩
    obtain ⟨-, ⟨object, hold⟩, -⟩ := mem_seenNames_iff.1 hmem
    obtain ⟨present, hpresent, -⟩ := h.kept hold
    rw [← h.keeps.refusal?_behind h.spot hold hpresent] at hrefusal
    exact ⟨(h.keeps.mem_seenNames_iff h.spot hold hpresent).2 hmem, hfits, hrefusal⟩

/-- A listing is refused as before. -/
theorem listingRefusal?_eq (h : disk.KeepsBelow other folder root) (parts : List EndingPart) :
    listingRefusal? other folder parts = listingRefusal? disk folder parts := by
  rw [listingRefusal?_of_spot (h.keeps.spot h.spot), listingRefusal?_of_spot h.spot,
    h.overlongNames_eq, h.refusedNames_eq]

end Disk.KeepsBelow

/-! ## Locked files -/

/-- That a file system is like another one but for one file, which can no longer be read in it. -/
structure FileSystem.Locks (files locked : FileSystem) (route : Route) : Prop where
  readable : ∃ content, files.objectAt route = some (.file content)
  shut : locked.objectAt route = some .locked ∨
    locked.objectAt route = files.objectAt route ∧ (locked.access route).read = false
  others : ∀ other, other ≠ route →
    locked.objectAt other = files.objectAt other ∧ locked.access other = files.access other

variable {files locked : FileSystem}

/-- Every file can be locked. -/
theorem FileSystem.locks_put {name : Text}
    (h : files.objectAt (route ++ [name]) = some (.file content)) :
    files.Locks (files.put route name .locked) (route ++ [name]) := by
  obtain ⟨hname, hfolder⟩ := folder_of_objectAt_concat h
  have haccepts : files.accepts route name = true := by simp [accepts, hname, hfolder, h]
  refine ⟨⟨content, h⟩, .inl (by rw [objectAt_put haccepts, if_pos rfl]), fun other hne => ?_⟩
  rw [objectAt_put haccepts, if_neg hne, access_put]
  exact ⟨rfl, rfl⟩

/-- The right to read a file can be taken away. -/
theorem FileSystem.locks_restrict {access : Access} (hread : access.read = false)
    (h : files.objectAt route = some (.file content)) :
    files.Locks (files.restrict route access) route := by
  refine ⟨⟨content, h⟩, .inr ⟨rfl, ?_⟩, fun other hne => ⟨rfl, if_neg fun hsame => hne hsame.1⟩⟩
  have hthere : route = route ∧ (files.objectAt route).isSome = true := ⟨rfl, by rw [h]; rfl⟩
  rw [restrict]
  exact (congrArg Access.read (if_pos hthere)).trans hread

/-- A file is locked among the same folders. -/
theorem FileSystem.Locks.keepsFolders (h : disk.files.Locks locked route) :
    disk.KeepsFolders ⟨locked, disk.cwd⟩ where
  cwd := rfl
  folders := by
    intro place hplace
    obtain ⟨content, hfile⟩ := h.readable
    have hne : place ≠ route := by
      rintro rfl
      cases hfile.symm.trans hplace
    exact ⟨(h.others place hne).1.trans hplace, (h.others place hne).2⟩

/-- A locked file is no source file, and the others are what they were. -/
theorem isSource_of_locks {inner : Route} (hspot : disk.spot folder = .object root .folder)
    (h : disk.files.Locks locked (root ++ names)) :
    IsSource ⟨locked, disk.cwd⟩ folder patterns inner content ↔
      IsSource disk folder patterns inner content ∧ inner ≠ names := by
  by_cases hinner : inner = names
  · subst hinner
    rw [isSource_iff (h.keepsFolders.spot hspot)]
    constructor
    · rintro ⟨hthere, hread, -⟩
      rcases h.shut with hlocked | ⟨-, hshut⟩
      · cases hlocked.symm.trans hthere
      · cases hshut.symm.trans hread
    · exact fun hsource => absurd rfl hsource.2
  · obtain ⟨hobject, haccess⟩ := h.others (root ++ inner) fun heq =>
      hinner (List.append_cancel_left heq)
    rw [h.keepsFolders.isSource_iff hspot hobject haccess, and_iff_left hinner]

/-- To lock a file refuses no listing. -/
theorem sourceRefusal?_of_locks (hspot : disk.spot folder = .object root .folder)
    (h : disk.files.Locks locked (root ++ names)) :
    sourceRefusal? ⟨locked, disk.cwd⟩ folder = sourceRefusal? disk folder := by
  obtain ⟨content, hfile⟩ := h.readable
  refine Disk.KeepsBelow.listingRefusal?_eq ⟨h.keepsFolders, hspot, ?_, ?_⟩ javaParts
  · intro inner object hobject
    by_cases hinner : root ++ inner = root ++ names
    · rw [hinner] at hobject ⊢
      cases hfile.symm.trans hobject
      rcases h.shut with hlocked | ⟨hsame, -⟩
      · exact ⟨.locked, hlocked, fun hfolder => by cases hfolder⟩
      · exact ⟨_, hsame.trans hfile, id⟩
    · exact ⟨object, (h.others _ hinner).1.trans hobject, id⟩
  · intro inner present hnone hpresent
    by_cases hinner : root ++ inner = root ++ names
    · rw [hinner, hfile] at hnone
      cases hnone
    · cases hnone.symm.trans ((h.others _ hinner).1.symm.trans hpresent)

/-- A locked file is passed over, and the others are listed as before. -/
theorem sourcesBelow_of_locks [Java.SourceReader] (hspot : disk.spot folder = .object root .folder)
    (h : disk.files.Locks locked (root ++ names)) :
    sourcesBelow ⟨locked, disk.cwd⟩ folder patterns =
      (sourcesBelow disk folder patterns).filter (·.path != folder.behind names) := by
  refine eq_of_ascending (listsSources_sourcesBelow _ folder patterns).ascending
    ((listsSources_sourcesBelow disk folder patterns).ascending.filter _) ?_
  intro source
  rw [List.mem_filter, mem_sourcesBelow_iff, mem_sourcesBelow_iff]
  have hpath : ∀ inner, folder.behind inner = folder.behind names ↔ inner = names := by
    simp [Path.behind]
  constructor
  · rintro ⟨inner, content, hsource, rfl⟩
    obtain ⟨hsource, hne⟩ := (isSource_of_locks hspot h).1 hsource
    exact ⟨⟨inner, content, hsource, rfl⟩, by simpa [hpath] using hne⟩
  · rintro ⟨⟨inner, content, hsource, rfl⟩, hne⟩
    rw [Disk.path_sourceOf, bne_iff_ne, Ne, hpath] at hne
    exact ⟨inner, content, (isSource_of_locks hspot h).2 ⟨hsource, hne⟩, rfl⟩

end DocGraph
