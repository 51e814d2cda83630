import DocGraph.Proofs.Project.Sources
import DocGraph.Proofs.Text.Glob
import DocGraph.Proofs.Text.Order
import Mathlib.Data.List.Sort

/-!
# What a listing finds

A listing finds the files below its folder that have the ending of the language and that no pattern
excludes, wherever they lie, each once and in the order of the names that lead to them. Folders
count for nothing but what is in them, even where their own names have the ending.

It meets what it can get at by listing one folder after the other, and it is refused where a folder
that it meets has too long a path or a name with the ending cannot be looked up. Where all below the
folder is open it meets everything and is not refused.

The order is total and no file is listed twice, so a listing is determined by the files it holds.
-/

namespace DocGraph

/-! ## The order of names -/

namespace Path

variable {a b c : List Text}

/-- Names are compared as texts, and lists of them by the first names in which they differ. -/
theorem namesLe_iff : namesLe a b = true ↔ a ≤ b := by
  rw [le_iff_lt_or_eq]
  induction a generalizing b with
  | nil => cases b <;> simp [namesLe]
  | cons x a ih =>
    cases b with
    | nil => simp [namesLe]
    | cons y b =>
      rw [namesLe, List.cons_lt_cons_iff, List.cons.injEq]
      split
      · next h => simp [h, ih]
      · next h => simp [h, Text.le_iff, le_iff_lt_or_eq]

theorem namesLe_total (a b : List Text) : (namesLe a b || namesLe b a) = true := by
  rw [Bool.or_eq_true, namesLe_iff, namesLe_iff]
  exact le_total a b

theorem namesLe_trans (hab : namesLe a b = true) (hbc : namesLe b c = true) :
    namesLe a c = true :=
  namesLe_iff.2 ((namesLe_iff.1 hab).trans (namesLe_iff.1 hbc))

theorem namesLe_antisymm (hab : namesLe a b = true) (hba : namesLe b a = true) : a = b :=
  (namesLe_iff.1 hab).antisymm (namesLe_iff.1 hba)

/-- Names that all stand behind the same ones are ordered by what is behind them. -/
theorem namesLe_append (above a b : List Text) :
    namesLe (above ++ a) (above ++ b) = namesLe a b := by
  induction above with
  | nil => rfl
  | cons x above ih => rw [List.cons_append, List.cons_append, namesLe, if_pos rfl, ih]

end Path

namespace Path

variable {names : List Text} {list : List (List Text)}

theorem sortNames_eq_insertionSort (list : List (List Text)) :
    sortNames list = list.insertionSort fun a b => namesLe a b = true := by
  have hinsert : ∀ names list, insertNames names list =
      List.orderedInsert (fun a b => namesLe a b = true) names list := by
    intro names list
    induction list with
    | nil => rfl
    | cons first rest ih => rw [insertNames, List.orderedInsert_cons, ih]
  have hsame : insertNames = List.orderedInsert fun a b => namesLe a b = true :=
    funext₂ hinsert
  rw [sortNames, hsame]
  rfl

theorem mem_sortNames : names ∈ sortNames list ↔ names ∈ list := by
  rw [sortNames_eq_insertionSort, List.mem_insertionSort]

/-- Distinct names are in strict order. -/
theorem sortNames_ascending (h : list.Nodup) :
    (sortNames list).Pairwise fun a b => namesLe b a = false := by
  have htotal : Std.Total fun a b => namesLe a b = true :=
    ⟨fun a b => by simpa using namesLe_total a b⟩
  have htrans : IsTrans (List Text) fun a b => namesLe a b = true := ⟨fun _ _ _ => namesLe_trans⟩
  rw [sortNames_eq_insertionSort]
  have hsorted := List.pairwise_insertionSort (fun a b => namesLe a b = true) list
  have hnodup := (List.perm_insertionSort (fun a b => namesLe a b = true) list).nodup_iff.2 h
  apply (hsorted.and hnodup).imp
  rintro a b ⟨hab, hne⟩
  rw [Bool.eq_false_iff]
  exact fun hba => hne (namesLe_antisymm hab hba)

end Path

theorem nodup_of_ascending {α : Type} {names : α → List Text} {items : List α}
    (h : items.Pairwise fun a b => Path.namesLe (names b) (names a) = false) : items.Nodup := by
  refine h.imp ?_
  rintro a b hba rfl
  have htotal := Path.namesLe_total (names a) (names a)
  simp [hba] at htotal

/-- Strictly ascending lists with the same members are the same. -/
theorem eq_of_ascending {α : Type} {names : α → List Text} {first second : List α}
    (hfirst : first.Pairwise fun a b => Path.namesLe (names b) (names a) = false)
    (hsecond : second.Pairwise fun a b => Path.namesLe (names b) (names a) = false)
    (h : ∀ a, a ∈ first ↔ a ∈ second) : first = second := by
  have hperm := (List.perm_ext_iff_of_nodup (nodup_of_ascending hfirst)
    (nodup_of_ascending hsecond)).2 h
  refine hperm.eq_of_pairwise ?_ hfirst hsecond
  intro a b _ _ hba hab
  have htotal := Path.namesLe_total (names a) (names b)
  simp [hba, hab] at htotal

/-! ## Endings -/

/-- Whether the last of some names ends in a text. -/
def HasEnding (ending : Text) (names : List Text) : Prop :=
  ∃ above name, names = above ++ [name] ∧ ending <:+ name

/-- Whether the last of some names has the ending of the language. -/
def HasJavaEnding (names : List Text) : Prop := HasEnding javaEnding names

/-- The parts that stand for a star and a literal. -/
def literalParts (literal : Text) : List EndingPart := [.name (.anyText :: literal.map .char)]

theorem fits_literalParts_iff {ending : Text} {names : List Text} :
    EndingPart.fits (.anyFolders :: literalParts ending) names = true ↔ HasEnding ending names := by
  have hone : ∀ last : List Text, EndingPart.fits (literalParts ending) last = true ↔
      ∃ name, last = [name] ∧ ending <:+ name := by
    intro last
    rw [literalParts]
    match last with
    | [] => simp [EndingPart.fits]
    | [name] => simp [EndingPart.fits, Glob.accepts_star_literal]
    | name :: next :: rest => simp [EndingPart.fits]
  have hparts : (!(literalParts ending).isEmpty) = true := rfl
  rw [EndingPart.fits, hparts, Bool.true_and, someSuffix_iff]
  constructor
  · rintro ⟨above, last, rfl, hlast⟩
    obtain ⟨name, rfl, hname⟩ := (hone last).1 hlast
    exact ⟨above, name, rfl, hname⟩
  · rintro ⟨above, name, rfl, hname⟩
    exact ⟨above, [name], rfl, (hone [name]).2 ⟨name, rfl, hname⟩⟩

theorem javaParts_eq : javaParts = literalParts javaEnding := by decide

theorem fits_javaParts_iff {names : List Text} :
    EndingPart.fits (.anyFolders :: javaParts) names = true ↔ HasJavaEnding names := by
  rw [javaParts_eq]
  exact fits_literalParts_iff

/-! ## What is met -/

variable {disk : Disk} {files : FileSystem} {folder file : Path} {patterns : List Text}
variable {route root names : Route} {source : SourceFile} {object : FileObject} {content : Bytes}
variable {parts : List EndingPart}

/-- That a listing meets an object below its folder: names lead there through folders that can be
listed. -/
def Meets (disk : Disk) (folder : Path) (names : Route) (object : FileObject) : Prop :=
  ∃ route, disk.spot folder = .object route .folder ∧
    disk.files.objectAt (route ++ names) = some object ∧ disk.sees folder names = true

theorem meets_iff (hspot : disk.spot folder = .object route .folder) :
    Meets disk folder names object ↔
      disk.files.objectAt (route ++ names) = some object ∧ disk.sees folder names = true := by
  constructor
  · rintro ⟨place, hplace, hmet⟩
    obtain ⟨rfl, -⟩ := Spot.object.inj (hspot.symm.trans hplace)
    exact hmet
  · exact fun hmet => ⟨route, hspot, hmet⟩

theorem Disk.sees_iff : disk.sees folder names = true ↔
    ∀ above name, above ++ [name] <+: names → disk.lists (folder.behind above) = true := by
  induction names generalizing folder with
  | nil =>
    have hnone : ∀ (above : Route) (name : Text), ¬ above ++ [name] <+: [] := by simp
    simp only [sees, true_iff]
    exact fun above name hinitial => absurd hinitial (hnone above name)
  | cons first rest ih =>
    have hchild : ∀ above, (folder.child first).behind above = folder.behind (first :: above) := by
      simp [Path.behind, Path.child]
    rw [sees, Bool.and_eq_true, ih]
    constructor
    · rintro ⟨hfirst, hrest⟩ above name hinitial
      cases above with
      | nil => rwa [Disk.behind_nil]
      | cons other above =>
        obtain ⟨rfl, hbehind⟩ := List.cons_prefix_cons.1 hinitial
        rw [← hchild]
        exact hrest above name hbehind
    · refine fun h => ⟨?_, fun above name hinitial => ?_⟩
      · have hfirst := h [] first (List.cons_prefix_cons.2 ⟨rfl, List.nil_prefix⟩)
        rwa [Disk.behind_nil] at hfirst
      · rw [hchild]
        exact h (first :: above) name (List.cons_prefix_cons.2 ⟨rfl, hinitial⟩)

theorem mem_seenNames_iff : names ∈ seenNames disk folder route ↔
    route ++ names ≠ [] ∧ (∃ object, disk.files.objectAt (route ++ names) = some object) ∧
      disk.sees folder names = true := by
  rw [seenNames, Path.mem_sortNames, List.mem_filter, FileSystem.mem_namesBelow_iff, and_assoc]

theorem seenNames_ascending (disk : Disk) (folder : Path) (route : Route) :
    (seenNames disk folder route).Pairwise fun a b => Path.namesLe b a = false :=
  Path.sortNames_ascending ((FileSystem.nodup_namesBelow disk.files route).filter _)

/-- What is at the route of the folder itself is no file, so a file that is met has names. -/
theorem mem_seenNames_of_meets (hspot : disk.spot folder = .object route .folder)
    (h : Meets disk folder names object) (hobject : object ≠ .folder) :
    names ∈ seenNames disk folder route := by
  obtain ⟨hthere, hsees⟩ := (meets_iff hspot).1 h
  refine mem_seenNames_iff.2 ⟨fun hnil => ?_, ⟨object, hthere⟩, hsees⟩
  rw [hnil, FileSystem.objectAt_nil] at hthere
  exact hobject (Option.some.inj hthere).symm

/-! ## Where a listing is refused -/

/-- The names of the folders that are met and have too long a path, in order. -/
def overlongNames (disk : Disk) (folder : Path) (route : Route) : List (List Text) :=
  (seenNames disk folder route).filter fun names =>
    disk.files.objectAt (route ++ names) == some .folder &&
      decide (maxPathSize < Utf8.size (folder.behind names).text)

/-- The names with the ending that are met and refused, with the errors, in order. -/
def refusedNames (disk : Disk) (folder : Path) (route : Route) (parts : List EndingPart) :
    List (List Text × FileError) :=
  (endingNames disk folder route parts).filterMap fun names =>
    (disk.refusal? (folder.behind names)).map fun error => (names, error)

theorem mem_overlongNames_iff : names ∈ overlongNames disk folder route ↔
    names ∈ seenNames disk folder route ∧ disk.files.objectAt (route ++ names) = some .folder ∧
      maxPathSize < Utf8.size (folder.behind names).text := by
  rw [overlongNames, List.mem_filter, Bool.and_eq_true, beq_iff_eq, decide_eq_true_eq]

theorem overlongNames_ascending (disk : Disk) (folder : Path) (route : Route) :
    (overlongNames disk folder route).Pairwise fun a b => Path.namesLe b a = false :=
  (seenNames_ascending disk folder route).filter _

theorem mem_refusedNames_iff {error : FileError} :
    (names, error) ∈ refusedNames disk folder route parts ↔
      names ∈ seenNames disk folder route ∧
        EndingPart.fits (.anyFolders :: parts) names = true ∧
          disk.refusal? (folder.behind names) = some error := by
  simp only [refusedNames, List.mem_filterMap, endingNames, List.mem_filter,
    Option.map_eq_some_iff, Prod.mk.injEq]
  constructor
  · rintro ⟨_, ⟨hmem, hfits⟩, _, hrefusal, rfl, rfl⟩
    exact ⟨hmem, hfits, hrefusal⟩
  · rintro ⟨hmem, hfits, hrefusal⟩
    exact ⟨names, ⟨hmem, hfits⟩, error, hrefusal, rfl, rfl⟩

theorem refusedNames_ascending (disk : Disk) (folder : Path) (route : Route)
    (parts : List EndingPart) :
    (refusedNames disk folder route parts).Pairwise fun a b => Path.namesLe b.1 a.1 = false := by
  rw [refusedNames, List.pairwise_filterMap]
  apply ((seenNames_ascending disk folder route).filter _).imp
  intro a b hab first hfirst second hsecond
  obtain ⟨_, -, rfl⟩ := Option.map_eq_some_iff.1 hfirst
  obtain ⟨_, -, rfl⟩ := Option.map_eq_some_iff.1 hsecond
  exact hab

/-- The first folder with too long a path refuses a listing, or else the first name with the ending
that is refused. -/
theorem listingRefusal?_of_spot (hspot : disk.spot folder = .object route .folder) :
    listingRefusal? disk folder parts =
      match (overlongNames disk folder route).head? with
      | some names => some ⟨.nameTooLong, folder.behind names⟩
      | none => (refusedNames disk folder route parts).head?.map Prod.snd := by
  have hlong : overlongFolder? disk folder route =
      (overlongNames disk folder route).head?.map folder.behind := by
    rw [overlongFolder?, List.find?_map, List.find?_filter, overlongNames, List.head?_filter]
    simp only [Bool.decide_and, Bool.decide_eq_true, Function.comp_apply]
  have hrefused : (endingNames disk folder route parts).findSome? (fun names =>
      disk.refusal? (folder.behind names)) =
        (refusedNames disk folder route parts).head?.map Prod.snd := by
    rw [refusedNames, List.head?_filterMap, List.map_findSome?]
    congr 1
    funext names
    simp [Function.comp_def]
  simp only [listingRefusal?, hspot]
  rw [hlong, hrefused]
  cases (overlongNames disk folder route).head? <;> rfl

theorem listingRefusal?_eq_none_of_spot_iff (hspot : disk.spot folder = .object route .folder) :
    listingRefusal? disk folder parts = none ↔
      overlongNames disk folder route = [] ∧ refusedNames disk folder route parts = [] := by
  rw [listingRefusal?_of_spot hspot]
  cases overlongNames disk folder route with
  | nil => simp
  | cons names rest => simp

/-- What is met is the folder itself and what is behind the names that are seen. -/
theorem forall_meets_iff {P : Route → FileObject → Prop}
    (hspot : disk.spot folder = .object route .folder) (hself : P [] .folder) :
    (∀ names object, Meets disk folder names object → P names object) ↔
      ∀ names ∈ seenNames disk folder route, ∀ object,
        disk.files.objectAt (route ++ names) = some object → P names object := by
  constructor
  · intro h names hmem object hobject
    exact h names object ((meets_iff hspot).2 ⟨hobject, (mem_seenNames_iff.1 hmem).2.2⟩)
  · intro h names object hmeets
    obtain ⟨hobject, hsees⟩ := (meets_iff hspot).1 hmeets
    by_cases hnil : route ++ names = []
    · obtain ⟨-, rfl⟩ := List.append_eq_nil_iff.1 hnil
      rw [hnil, FileSystem.objectAt_nil] at hobject
      cases hobject
      exact hself
    · exact h names (mem_seenNames_iff.2 ⟨hnil, ⟨object, hobject⟩, hsees⟩) object hobject

/-- A listing is refused with its folder, where it meets a folder with too long a path, and where it
meets a name with the ending that is refused. -/
theorem listingRefusal?_eq_none_iff : listingRefusal? disk folder parts = none ↔
    disk.refusal? folder = none ∧ ∀ names object, Meets disk folder names object →
      (object = .folder → Utf8.size (folder.behind names).text ≤ maxPathSize) ∧
      (EndingPart.fits (.anyFolders :: parts) names = true →
        disk.refusal? (folder.behind names) = none) := by
  by_cases hfound : ∃ route, disk.spot folder = .object route .folder
  · obtain ⟨route, hspot⟩ := hfound
    have hrefusal := Disk.refusal?_of_spot hspot
    obtain ⟨reached, hstart, -⟩ := Disk.exists_walk_of_spot hspot
    have hsize := (Disk.start_eq_ok_iff.1 hstart).2.1
    rw [listingRefusal?_eq_none_of_spot_iff hspot, forall_meets_iff hspot (by
      rw [Disk.behind_nil]
      exact ⟨fun _ => hsize, fun _ => hrefusal⟩)]
    simp only [List.eq_nil_iff_forall_not_mem, Prod.forall, mem_overlongNames_iff,
      mem_refusedNames_iff]
    constructor
    · rintro ⟨hlong, hrefused⟩
      refine ⟨hrefusal, fun names hmem object hobject => ⟨?_, fun hfits => ?_⟩⟩
      · rintro rfl
        exact Nat.not_lt.1 fun hover => hlong names ⟨hmem, hobject, hover⟩
      · rw [Option.eq_none_iff_forall_ne_some]
        exact fun error herror => hrefused names error ⟨hmem, hfits, herror⟩
    · rintro ⟨-, h⟩
      refine ⟨?_, ?_⟩
      · rintro names ⟨hmem, hobject, hover⟩
        exact absurd ((h names hmem _ hobject).1 rfl) (Nat.not_le.2 hover)
      · rintro names error ⟨hmem, hfits, herror⟩
        obtain ⟨-, ⟨object, hobject⟩, -⟩ := mem_seenNames_iff.1 hmem
        cases ((h names hmem object hobject).2 hfits).symm.trans herror
  · have hnone : listingRefusal? disk folder parts = disk.refusal? folder := by
      rw [listingRefusal?]
      split
      · next route hspot => exact absurd ⟨route, hspot⟩ hfound
      · rfl
    rw [hnone, and_iff_left]
    rintro names object ⟨route, hspot, -⟩
    exact absurd ⟨route, hspot⟩ hfound

/-- That a folder and all below it can be listed and searched, and no path there is too long. -/
structure IsOpen (disk : Disk) (folder : Path) : Prop where
  refusal : disk.refusal? folder = none
  access : ∀ route names, disk.spot folder = .object route .folder →
    disk.files.objectAt (route ++ names) = some .folder →
      (disk.files.access (route ++ names)).read = true ∧
        (disk.files.access (route ++ names)).search = true
  size : ∀ route names object, disk.spot folder = .object route .folder →
    disk.files.objectAt (route ++ names) = some object →
      Utf8.size (folder.behind names).text ≤ maxPathSize

/-- Whether all is open below a folder can be computed. -/
theorem isOpen_iff (hspot : disk.spot folder = .object route .folder) :
    IsOpen disk folder ↔ ∀ names ∈ [] :: disk.files.namesBelow route,
      Utf8.size (folder.behind names).text ≤ maxPathSize ∧
        (disk.files.objectAt (route ++ names) = some .folder →
          (disk.files.access (route ++ names)).read = true ∧
            (disk.files.access (route ++ names)).search = true) := by
  have hfolder := Disk.objectAt_of_spot hspot
  constructor
  · intro h names hmem
    refine ⟨?_, h.access route names hspot⟩
    rcases List.mem_cons.1 hmem with rfl | hbelow
    · exact h.size route [] .folder hspot (by rwa [List.append_nil])
    · obtain ⟨-, object, hobject⟩ := FileSystem.mem_namesBelow_iff.1 hbelow
      exact h.size route names object hspot hobject
  · intro h
    have hmem : ∀ {names object}, disk.files.objectAt (route ++ names) = some object →
        names ∈ [] :: disk.files.namesBelow route := by
      intro names object hobject
      by_cases hnil : route ++ names = []
      · rw [(List.append_eq_nil_iff.1 hnil).2]
        exact List.mem_cons_self
      · exact List.mem_cons_of_mem _ (FileSystem.mem_namesBelow_iff.2 ⟨hnil, object, hobject⟩)
    refine ⟨Disk.refusal?_of_spot hspot, ?_, ?_⟩
    · intro place names hplace hobject
      obtain ⟨rfl, -⟩ := Spot.object.inj (hspot.symm.trans hplace)
      exact (h names (hmem hobject)).2 hobject
    · intro place names object hplace hobject
      obtain ⟨rfl, -⟩ := Spot.object.inj (hspot.symm.trans hplace)
      exact (h names (hmem hobject)).1

theorem IsOpen.refusal?_behind (h : IsOpen disk folder)
    (hspot : disk.spot folder = .object route .folder)
    (hobject : disk.files.objectAt (route ++ names) = some object) :
    disk.refusal? (folder.behind names) = none := by
  have hsearches : Disk.searches disk.files route names = true := by
    rw [Disk.searches_iff]
    rintro above name ⟨below, rfl⟩
    refine (h.access route above hspot ?_).2
    rw [List.append_assoc above, ← List.append_assoc] at hobject
    exact FileSystem.folder_of_objectAt_append hobject (by simp)
  rw [Disk.refusal?_behind hspot hobject, if_pos hsearches,
    if_neg (Nat.not_lt.2 (h.size route names object hspot hobject))]

/-- A listing of what is open is not refused, and it meets everything that is there. -/
theorem IsOpen.listed (h : IsOpen disk folder) (parts : List EndingPart) :
    listingRefusal? disk folder parts = none ∧
      ∀ route names object, disk.spot folder = .object route .folder →
        (Meets disk folder names object ↔ disk.files.objectAt (route ++ names) = some object) := by
  constructor
  · refine listingRefusal?_eq_none_iff.2 ⟨h.refusal, ?_⟩
    rintro names object ⟨route, hspot, hobject, -⟩
    exact ⟨fun _ => h.size route names object hspot hobject,
      fun _ => h.refusal?_behind hspot hobject⟩
  · intro route names object hspot
    rw [meets_iff hspot, and_iff_left_iff_imp]
    intro hobject
    rw [Disk.sees_iff]
    rintro above name ⟨below, rfl⟩
    have hfolder : disk.files.objectAt (route ++ above) = some .folder := by
      rw [List.append_assoc above, ← List.append_assoc] at hobject
      exact FileSystem.folder_of_objectAt_append hobject (by simp)
    rw [Disk.lists, Disk.spot_behind_of_not_refused hspot hfolder
      (h.refusal?_behind hspot hfolder)]
    exact (h.access route above hspot hfolder).1

/-! ## Files below a folder -/

theorem mem_endingPaths_iff : file ∈ endingPaths disk folder parts patterns ↔
    ∃ names object, Meets disk folder names object ∧ disk.hasFile (folder.behind names) = true ∧
      EndingPart.fits (.anyFolders :: parts) names = true ∧
      anyExcludes patterns ⟨.here, names⟩ = false ∧ file = folder.behind names := by
  rw [endingPaths]
  split
  · next route hspot =>
    simp only [List.mem_map, List.mem_filter, endingNames, Bool.and_eq_true, Bool.not_eq_true']
    constructor
    · rintro ⟨names, ⟨⟨hmem, hfits⟩, hfile, hkept⟩, rfl⟩
      obtain ⟨-, ⟨object, hthere⟩, hsees⟩ := mem_seenNames_iff.1 hmem
      exact ⟨names, object, ⟨route, hspot, hthere, hsees⟩, hfile, hfits, hkept, rfl⟩
    · rintro ⟨names, object, hmeets, hfile, hfits, hkept, rfl⟩
      refine ⟨names, ⟨⟨mem_seenNames_of_meets hspot hmeets ?_, hfits⟩, hfile, hkept⟩, rfl⟩
      have hthere := ((meets_iff hspot).1 hmeets).1
      rintro rfl
      rw [Disk.hasFile_behind hspot hthere (Disk.refusal?_of_hasFile hfile)] at hfile
      cases hfile
  · next hno =>
    constructor
    · intro hmem
      cases hmem
    · rintro ⟨names, object, ⟨route, hspot, -⟩, -⟩
      exact absurd hspot (hno route)

theorem endingPaths_ascending (disk : Disk) (folder : Path) (parts : List EndingPart)
    (patterns : List Text) :
    (endingPaths disk folder parts patterns).Pairwise fun a b =>
      Path.namesLe b.names a.names = false := by
  rw [endingPaths]
  split
  · rw [List.pairwise_map]
    apply (((seenNames_ascending _ _ _).filter _).filter _).imp
    intro a b hab
    rwa [Path.behind, Path.behind, Path.namesLe_append]
  · exact List.Pairwise.nil

/-! ## Source files -/

/-- That names lead from a folder to a source file with a content: a file that its listing meets,
and that can be read there, has the ending of the language and is not excluded. -/
structure IsSource (disk : Disk) (folder : Path) (patterns : List Text) (names : Route)
    (content : Bytes) : Prop where
  met : Meets disk folder names (.file content)
  readable : disk.read (folder.behind names) = .ok content
  ending : HasJavaEnding names
  kept : anyExcludes patterns ⟨.here, names⟩ = false

/-- What makes a source file below a folder that leads somewhere. -/
theorem isSource_iff (hspot : disk.spot folder = .object root .folder) :
    IsSource disk folder patterns names content ↔
      disk.files.objectAt (root ++ names) = some (.file content) ∧
      (disk.files.access (root ++ names)).read = true ∧ disk.sees folder names = true ∧
      disk.refusal? (folder.behind names) = none ∧ HasJavaEnding names ∧
      anyExcludes patterns ⟨.here, names⟩ = false := by
  constructor
  · rintro ⟨hmet, hreadable, hending, hkept⟩
    obtain ⟨hthere, hsees⟩ := (meets_iff hspot).1 hmet
    obtain ⟨hrefusal, hread⟩ := (Disk.read_behind hspot hthere).1 hreadable
    exact ⟨hthere, hread, hsees, hrefusal, hending, hkept⟩
  · rintro ⟨hthere, hread, hsees, hrefusal, hending, hkept⟩
    exact ⟨(meets_iff hspot).2 ⟨hthere, hsees⟩, (Disk.read_behind hspot hthere).2 ⟨hrefusal, hread⟩,
      hending, hkept⟩

/-- Below an open folder every readable file with the ending that is not excluded is a source file. -/
theorem IsOpen.isSource_iff (h : IsOpen disk folder)
    (hspot : disk.spot folder = .object root .folder) :
    IsSource disk folder patterns names content ↔
      disk.files.objectAt (root ++ names) = some (.file content) ∧
      (disk.files.access (root ++ names)).read = true ∧ HasJavaEnding names ∧
      anyExcludes patterns ⟨.here, names⟩ = false := by
  rw [DocGraph.isSource_iff hspot]
  refine and_congr_right fun hobject => and_congr_right fun _ => ?_
  have hmeets := ((h.listed javaParts).2 root names _ hspot).2 hobject
  have hsees := ((meets_iff hspot).1 hmeets).2
  simp [hsees, h.refusal?_behind hspot hobject]

/-- That the listing of a folder is not refused and its source files are all readable files with the
ending below it that are not excluded. -/
structure ListsAll (disk : Disk) (folder : Path) (patterns : List Text) : Prop where
  refusal : sourceRefusal? disk folder = none
  isSource_iff : ∀ root names content, disk.spot folder = .object root .folder →
    (IsSource disk folder patterns names content ↔
      disk.files.objectAt (root ++ names) = some (.file content) ∧
      (disk.files.access (root ++ names)).read = true ∧ HasJavaEnding names ∧
      anyExcludes patterns ⟨.here, names⟩ = false)

theorem IsOpen.listsAll (h : IsOpen disk folder) (patterns : List Text) :
    ListsAll disk folder patterns :=
  ⟨(h.listed javaParts).1, fun _ _ _ hspot => h.isSource_iff hspot⟩

/-- A folder that cannot be looked up has no source files. -/
theorem not_isSource_of_refusal? {error : FileError} (h : disk.refusal? folder = some error) :
    ¬ IsSource disk folder patterns names content := by
  rintro ⟨⟨route, hspot, -⟩, -⟩
  cases (Disk.refusal?_of_spot hspot).symm.trans h

variable [Java.SourceReader]

/-- That a list holds the source files below a folder, each once and in the component-wise order of
their paths. -/
structure ListsSources (disk : Disk) (folder : Path) (patterns : List Text)
    (sources : List SourceFile) : Prop where
  mem_iff : ∀ source, source ∈ sources ↔ ∃ names content,
    IsSource disk folder patterns names content ∧
      source = Disk.sourceOf (folder.behind names) content
  ascending : sources.Pairwise fun a b => Path.namesLe b.path.names a.path.names = false

theorem path_of_sourceAt? (h : disk.sourceAt? file = some source) : source.path = file := by
  obtain ⟨content, -, rfl⟩ := Option.map_eq_some_iff.1 h
  rfl

theorem mem_sourcesBelow_iff : source ∈ sourcesBelow disk folder patterns ↔
    ∃ names content, IsSource disk folder patterns names content ∧
      source = Disk.sourceOf (folder.behind names) content := by
  rw [sourcesBelow, List.mem_filterMap]
  constructor
  · rintro ⟨file, hmem, hsource⟩
    obtain ⟨names, object, ⟨route, hspot, hthere, hsees⟩, hfile, hfits, hkept, rfl⟩ :=
      mem_endingPaths_iff.1 hmem
    obtain ⟨content, hcontent, rfl⟩ := Option.map_eq_some_iff.1 hsource
    have hread := Disk.content?_eq_some_iff.1 hcontent
    obtain ⟨place, hplace, -⟩ := Disk.read_eq_ok_iff.1 hread
    cases (Disk.spot_behind_of_not_refused hspot hthere (Disk.refusal?_of_hasFile hfile)).symm.trans
      hplace
    exact ⟨names, content,
      ⟨⟨route, hspot, hthere, hsees⟩, hread, fits_javaParts_iff.1 hfits, hkept⟩, rfl⟩
  · rintro ⟨names, content, ⟨hmet, hread, hending, hkept⟩, rfl⟩
    have hcontent := Disk.content?_eq_some_iff.2 hread
    refine ⟨folder.behind names, mem_endingPaths_iff.2 ⟨names, _, hmet,
      Disk.hasFile_of_content? hcontent, fits_javaParts_iff.2 hending, hkept, rfl⟩, ?_⟩
    rw [Disk.sourceAt?, hcontent]
    rfl

theorem listsSources_sourcesBelow (disk : Disk) (folder : Path) (patterns : List Text) :
    ListsSources disk folder patterns (sourcesBelow disk folder patterns) where
  mem_iff _ := mem_sourcesBelow_iff
  ascending := by
    rw [sourcesBelow, foundFiles, List.pairwise_filterMap]
    apply (endingPaths_ascending disk folder javaParts patterns).imp
    intro a b hab first hfirst second hsecond
    rwa [path_of_sourceAt? hfirst, path_of_sourceAt? hsecond]

/-- The source files of a project are determined by which names lead to a source file. -/
theorem sourcesBelow_congr {first second : Disk}
    (h : ∀ names content, IsSource first folder patterns names content ↔
      IsSource second folder patterns names content) :
    sourcesBelow first folder patterns = sourcesBelow second folder patterns := by
  refine eq_of_ascending (listsSources_sourcesBelow first folder patterns).ascending
    (listsSources_sourcesBelow second folder patterns).ascending ?_
  intro source
  simp only [mem_sourcesBelow_iff, h]

end DocGraph
