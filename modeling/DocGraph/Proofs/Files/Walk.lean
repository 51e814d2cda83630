import DocGraph.Files.Disk
import DocGraph.Proofs.Files.Routes

/-!
# Walking along a path

The place where a walk ends is the one that the text of the path says, and every folder on the way
there that the walk did not start in or below may be searched. The names of an object lead to it
from a folder around it exactly if the folders between may be searched.

A walk is blocked where nothing can be. The other causes are a name that is too long and a folder
that may not be searched.
-/

namespace DocGraph

namespace Disk

variable {files : FileSystem} {reached route : Route} {name : Text}
variable {names : List Text} {object : FileObject} {fault : FileFault}

/-- A walk ends where the text of the path leads. -/
theorem route_of_walk (h : walk files reached names = .object route object) :
    route = names.foldl Path.follow reached := by
  fun_induction walk files reached names with
  | case1 reached =>
    cases h
    rfl
  | case3 reached rest hopen ih =>
    rw [List.foldl_cons, Path.follow, if_pos rfl]
    exact ih h
  | case5 reached name hopen hup hsize rest hfolder ih =>
    rw [List.foldl_cons, Path.follow, if_neg hup]
    exact ih h
  | case6 reached name hopen hup hsize last hfolder hlast =>
    rw [List.foldl_cons, Path.follow, if_neg hup]
    exact (Spot.object.inj h).1.symm
  | case2 | case4 | case7 | case8 | case9 => cases h

/-- A walk from a folder ends at what is there. -/
theorem objectAt_of_walk (hreached : files.objectAt reached = some .folder)
    (h : walk files reached names = .object route object) : files.objectAt route = some object := by
  fun_induction walk files reached names with
  | case1 reached =>
    cases h
    exact hreached
  | case3 reached rest hopen ih => exact ih (FileSystem.folder_dropLast hreached) h
  | case5 reached name hopen hup hsize rest hfolder ih => exact ih hfolder h
  | case6 reached name hopen hup hsize last hfolder hlast =>
    cases h
    exact hlast
  | case2 | case4 | case7 | case8 | case9 => cases h

/-- A walk to a vacant place ends in a folder, and nothing in it has the last name. -/
theorem exists_of_walk_vacant {folder : Route}
    (h : walk files reached names = .vacant folder name) :
    ∃ above, names = above ++ [name] ∧ walk files reached above = .object folder .folder ∧
      ¬ (files.access folder).search = false ∧ name ≠ Path.up ∧ ¬ maxNameSize < Utf8.size name ∧
      files.objectAt (folder ++ [name]) = none := by
  fun_induction walk files reached names with
  | case3 reached rest hopen ih =>
    obtain ⟨above, rfl, hwalk, hrest⟩ := ih h
    exact ⟨Path.up :: above, rfl, by rw [walk_up hopen, hwalk], hrest⟩
  | case5 reached name hopen hup hsize rest hfolder ih =>
    obtain ⟨above, rfl, hwalk, hrest⟩ := ih h
    exact ⟨name :: above, rfl, by rw [walk_into hopen hup hsize hfolder, hwalk], hrest⟩
  | case8 reached name hopen hup hsize hnone =>
    cases h
    exact ⟨[], rfl, rfl, hopen, hup, hsize, hnone⟩
  | case1 | case2 | case4 | case6 | case7 | case9 => cases h

/-- A vacant place is where the text of the path leads. -/
theorem route_of_walk_vacant {folder : Route}
    (h : walk files reached names = .vacant folder name) :
    folder ++ [name] = names.foldl Path.follow reached := by
  obtain ⟨above, rfl, hwalk, -, hup, -⟩ := exists_of_walk_vacant h
  rw [List.foldl_append, ← route_of_walk hwalk, List.foldl_cons, List.foldl_nil, Path.follow,
    if_neg hup]

theorem vacant_of_walk {folder : Route} (h : walk files reached names = .vacant folder name) :
    files.objectAt (names.foldl Path.follow reached) = none := by
  obtain ⟨-, -, -, -, -, -, hnone⟩ := exists_of_walk_vacant h
  rw [← route_of_walk_vacant h, hnone]

/-! ## Searched folders -/

/-- Whether all folders that names lead through from a folder may be searched, itself included. -/
def searches (files : FileSystem) (reached : Route) : List Text → Bool
  | [] => true
  | name :: rest => (files.access reached).search && searches files (reached ++ [name]) rest

theorem searches_iff : searches files reached names = true ↔
    ∀ above name, above ++ [name] <+: names → (files.access (reached ++ above)).search = true := by
  induction names generalizing reached with
  | nil =>
    have hnone : ∀ (above : Route) (name : Text), ¬ above ++ [name] <+: [] := by simp
    simp only [searches, true_iff]
    exact fun above name hinitial => absurd hinitial (hnone above name)
  | cons first rest ih =>
    rw [searches, Bool.and_eq_true, ih]
    constructor
    · rintro ⟨hfirst, hrest⟩ above name hinitial
      cases above with
      | nil => rwa [List.append_nil]
      | cons other above =>
        obtain ⟨rfl, hbehind⟩ := List.cons_prefix_cons.1 hinitial
        rw [← List.singleton_append, ← List.append_assoc]
        exact hrest above name hbehind
    · refine fun h => ⟨?_, fun above name hinitial => ?_⟩
      · have hfirst := h [] first (List.cons_prefix_cons.2 ⟨rfl, List.nil_prefix⟩)
        rwa [List.append_nil] at hfirst
      · rw [List.append_assoc, List.singleton_append]
        exact h (first :: above) name (List.cons_prefix_cons.2 ⟨rfl, hinitial⟩)

/-- Whatever lies below a place where a walk does not start was reached through searched folders. -/
theorem search_of_walk (h : walk files reached names = .object route object) {above : Route}
    (hroute : above ++ [name] <+: route) (hreached : ¬ above ++ [name] <+: reached) :
    (files.access above).search = true := by
  have hinto : ∀ {place : Route} {next : Text}, ¬ (files.access place).search = false →
      ¬ above ++ [name] <+: place → above ++ [name] <+: place ++ [next] →
      (files.access above).search = true := by
    intro place next hopen hnot hinitial
    rcases List.prefix_concat_iff.1 hinitial with heq | hinitial
    · obtain ⟨rfl, -⟩ := List.append_inj' heq rfl
      exact Bool.not_eq_false _ ▸ hopen
    · exact absurd hinitial hnot
  fun_induction walk files reached names with
  | case1 reached =>
    cases h
    exact absurd hroute hreached
  | case3 reached rest hopen ih =>
    exact ih h fun hinitial => hreached (hinitial.trans (List.dropLast_prefix _))
  | case5 reached next hopen hup hsize rest hfolder ih =>
    by_cases hinitial : above ++ [name] <+: reached ++ [next]
    · exact hinto hopen hreached hinitial
    · exact ih h hinitial
  | case6 reached next hopen hup hsize last hfolder hlast =>
    cases h
    exact hinto hopen hreached hroute
  | case2 | case4 | case7 | case8 | case9 => cases h

/-- The names of an object lead to it from every folder around it, as far as the folders between may
be searched. -/
theorem walk_of_objectAt (h : files.objectAt (reached ++ names) = some object)
    (hne : names ≠ []) : walk files reached names =
      if searches files reached names then .object (reached ++ names) object
      else .blocked .denied := by
  induction names generalizing reached with
  | nil => exact absurd rfl hne
  | cons name rest ih =>
    have hname : isFileName name = true :=
      FileSystem.isFileName_of_mem h (List.mem_append_right _ List.mem_cons_self)
    simp only [isFileName, Bool.and_eq_true, bne_iff_ne, decide_eq_true_eq] at hname
    obtain ⟨⟨⟨⟨-, -⟩, hup⟩, -⟩, hsize⟩ := hname
    have hsize := Nat.not_lt.2 hsize
    by_cases hopen : (files.access reached).search = false
    · rw [walk_shut hopen, searches, hopen, Bool.false_and, if_neg Bool.false_ne_true]
    · have hsearch : (files.access reached).search = true := by simpa using hopen
      cases rest with
      | nil =>
        rw [walk_last hopen hup hsize h, searches, hsearch]
        rfl
      | cons next rest =>
        have h' : files.objectAt ((reached ++ [name]) ++ (next :: rest)) = some object := by
          simpa using h
        have hfolder := FileSystem.folder_of_objectAt_append h' (by simp)
        have hsearches : searches files reached (name :: next :: rest) =
            searches files (reached ++ [name]) (next :: rest) := by
          rw [searches, hsearch, Bool.true_and]
        rw [walk_into hopen hup hsize hfolder, ih h' (by simp), hsearches, List.append_assoc,
          List.singleton_append]

/-! ## Walks in two file systems -/

/-- A walk to a folder only passes folders, so it needs no more than these and that they may be
searched. -/
theorem walk_folder_mono {other : FileSystem}
    (hfolders : ∀ {place}, files.objectAt place = some .folder →
      other.objectAt place = some .folder ∧ other.access place = files.access place)
    (hreached : files.objectAt reached = some .folder)
    (h : walk files reached names = .object route .folder) :
    walk other reached names = .object route .folder := by
  fun_induction walk files reached names with
  | case1 reached => exact h
  | case3 reached rest hopen ih =>
    rw [walk_up (by rwa [(hfolders hreached).2])]
    exact ih (FileSystem.folder_dropLast hreached) h
  | case5 reached name hopen hup hsize rest hfolder ih =>
    rw [walk_into (by rwa [(hfolders hreached).2]) hup hsize (hfolders hfolder).1]
    exact ih hfolder h
  | case6 reached name hopen hup hsize object hfolder hobject =>
    exact absurd (Spot.object.inj h).2 hfolder
  | case2 | case4 | case7 | case8 | case9 => cases h

/-- The same holds of a walk that cannot be told the end of. -/
theorem walk_refused_mono {other : FileSystem}
    (hfolders : ∀ {place}, files.objectAt place = some .folder →
      other.objectAt place = some .folder ∧ other.access place = files.access place)
    (hreached : files.objectAt reached = some .folder) (hfault : fault.isAbsence = false)
    (h : walk files reached names = .blocked fault) :
    walk other reached names = .blocked fault := by
  fun_induction walk files reached names with
  | case2 reached name rest hshut =>
    rw [walk_shut (by rwa [(hfolders hreached).2]), h]
  | case3 reached rest hopen ih =>
    rw [walk_up (by rwa [(hfolders hreached).2])]
    exact ih (FileSystem.folder_dropLast hreached) h
  | case4 reached name rest hopen hup hlong =>
    rw [walk_long (by rwa [(hfolders hreached).2]) hup hlong, h]
  | case5 reached name hopen hup hsize rest hfolder ih =>
    rw [walk_into (by rwa [(hfolders hreached).2]) hup hsize (hfolders hfolder).1]
    exact ih hfolder h
  | case7 | case9 =>
    cases h
    cases hfault
  | case1 | case6 | case8 => cases h

end Disk

end DocGraph
