import DocGraph.Files.FileSystem
import Mathlib.Data.List.Induction

/-!
# Routes of a file system

Every object lies in a folder, so all that a route runs through is a folder and each of its names is
the name of a file. A list of the names below a route leads to exactly the objects there, and one of
the files to those that are no folders.
-/

namespace DocGraph

namespace FileSystem

variable {files : FileSystem} {route above below names : Route} {object : FileObject}

@[simp] theorem objectAt_nil (files : FileSystem) : files.objectAt [] = some .folder := rfl

/-- The keys of the list are distinct, so a look-up finds the entry that is there. -/
theorem mem_objects_iff (h : route ≠ []) :
    (route, object) ∈ files.objects ↔ files.objectAt route = some object := by
  have hkeys : ∀ objects : List (Route × FileObject), (objects.map (·.1)).Nodup →
      ((route, object) ∈ objects ↔
        (objects.find? (·.1 == route)).map (·.2) = some object) := by
    intro objects hnodup
    induction objects with
    | nil => simp
    | cons entry rest ih =>
      obtain ⟨hnew, hrest⟩ := List.nodup_cons.1 hnodup
      by_cases he : entry.1 = route
      · have hno : (route, object) ∉ rest := by
          intro hmem
          exact hnew (List.mem_map.2 ⟨_, hmem, he.symm⟩)
        simp [he, hno, Prod.ext_iff, eq_comm]
      · have hno : (route, object) ≠ entry := fun heq => he (by rw [← heq])
        simp [he, hno, ih hrest]
  simp only [objectAt, objectIn, h, if_false]
  exact hkeys files.objects files.distinct

/-- Whatever is not the root has a name and lies in a folder. -/
theorem exists_folder (h : files.objectAt route = some object) (hne : route ≠ []) :
    ∃ folder name, route = folder ++ [name] ∧ isFileName name = true ∧
      files.objectAt folder = some .folder :=
  files.rooted route (List.mem_map.2 ⟨_, (mem_objects_iff hne).2 h, rfl⟩)

theorem folder_of_objectAt_concat {name : Text}
    (h : files.objectAt (route ++ [name]) = some object) :
    isFileName name = true ∧ files.objectAt route = some .folder := by
  obtain ⟨folder, last, heq, hname, hfolder⟩ := exists_folder h (by simp)
  obtain ⟨rfl, hlast⟩ := List.append_inj' heq rfl
  cases hlast
  exact ⟨hname, hfolder⟩

/-- Two dots lead from a folder to a folder. -/
theorem folder_dropLast (h : files.objectAt route = some object) :
    files.objectAt route.dropLast = some .folder := by
  by_cases hne : route = []
  · rw [hne]
    exact objectAt_nil files
  · obtain ⟨folder, name, rfl, -, hfolder⟩ := exists_folder h hne
    rwa [List.dropLast_concat]

/-- What lies on the way to an object is a folder. -/
theorem folder_of_objectAt_append (h : files.objectAt (above ++ below) = some object)
    (hne : below ≠ []) : files.objectAt above = some .folder := by
  induction below using List.reverseRecOn generalizing object with
  | nil => exact absurd rfl hne
  | append_singleton front last ih =>
    rw [← List.append_assoc] at h
    have hfront := (folder_of_objectAt_concat h).2
    by_cases hempty : front = []
    · simpa [hempty] using hfront
    · exact ih hfront hempty

/-- Every name on the way to an object is the name of a file. -/
theorem isFileName_of_mem {name : Text} (h : files.objectAt route = some object)
    (hmem : name ∈ route) : isFileName name = true := by
  induction route using List.reverseRecOn generalizing object with
  | nil => simp at hmem
  | append_singleton front last ih =>
    obtain ⟨hlast, hfront⟩ := folder_of_objectAt_concat h
    rcases List.mem_append.1 hmem with hin | hin
    · exact ih hfront hin
    · rw [List.mem_singleton.1 hin]
      exact hlast

end FileSystem

theorem Path.namesAfter?_eq_some_iff {above route rest : List Text} :
    Path.namesAfter? above route = some rest ↔ route = above ++ rest := by
  induction above generalizing route with
  | nil => simp [Path.namesAfter?, eq_comm]
  | cons a above ih =>
    cases route with
    | nil => simp [Path.namesAfter?]
    | cons b route =>
      by_cases h : a = b
      · simp [Path.namesAfter?, h, ih]
      · simp [Path.namesAfter?, h, Ne.symm h]

namespace FileSystem

variable {files : FileSystem} {route names : Route} {object : FileObject}

/-- Whatever is at or below a route has its names among those that lead there, but for the root. -/
theorem mem_namesBelow_iff : names ∈ files.namesBelow route ↔
    route ++ names ≠ [] ∧ ∃ object, files.objectAt (route ++ names) = some object := by
  rw [namesBelow, List.mem_filterMap]
  constructor
  · rintro ⟨⟨place, object⟩, hmem, hnames⟩
    obtain rfl := Path.namesAfter?_eq_some_iff.1 hnames
    obtain ⟨folder, name, hroute, -⟩ := files.rooted _ (List.mem_map.2 ⟨_, hmem, rfl⟩)
    have hne : route ++ names ≠ [] := by
      intro hnil
      rw [show (route ++ names, object).1 = [] from hnil] at hroute
      simp at hroute
    exact ⟨hne, object, (mem_objects_iff hne).1 hmem⟩
  · rintro ⟨hne, object, hobject⟩
    exact ⟨_, (mem_objects_iff hne).2 hobject, Path.namesAfter?_eq_some_iff.2 rfl⟩

/-- The names that lead to an object are told once. -/
theorem nodup_namesBelow (files : FileSystem) (route : Route) : (files.namesBelow route).Nodup := by
  have hnames : files.namesBelow route =
      (files.objects.map (·.1)).filterMap (Path.namesAfter? route) := by
    rw [namesBelow, List.filterMap_map]
    rfl
  rw [hnames]
  refine List.Pairwise.filterMap _ ?_ files.distinct
  rintro first second hne names hfirst _ hsecond rfl
  rw [Path.namesAfter?_eq_some_iff.1 hfirst, Path.namesAfter?_eq_some_iff.1 hsecond] at hne
  exact hne rfl

/-- The files below a route are the objects there that are no folders. -/
theorem mem_filesBelow_iff :
    (names, object) ∈ files.filesBelow route ↔
      object ≠ .folder ∧ files.objectAt (route ++ names) = some object := by
  simp only [filesBelow, List.mem_filterMap]
  constructor
  · rintro ⟨⟨entryRoute, entryObject⟩, hmem, hfound⟩
    by_cases hfolder : entryObject = .folder
    · simp [hfolder] at hfound
    · simp only [hfolder, if_false, Option.map_eq_some_iff, Prod.mk.injEq] at hfound
      obtain ⟨rest, hrest, rfl, rfl⟩ := hfound
      obtain rfl := Path.namesAfter?_eq_some_iff.1 hrest
      refine ⟨hfolder, (mem_objects_iff ?_).1 hmem⟩
      obtain ⟨_, _, hroute, _, _⟩ := files.rooted _ (List.mem_map.2 ⟨_, hmem, rfl⟩)
      simp only at hroute
      simp [hroute]
  · rintro ⟨hfolder, hobject⟩
    have hne : route ++ names ≠ [] := by
      intro hnil
      rw [hnil, objectAt_nil] at hobject
      exact hfolder (Option.some.inj hobject).symm
    refine ⟨(route ++ names, object), (mem_objects_iff hne).2 hobject, ?_⟩
    simp [hfolder, Path.namesAfter?_eq_some_iff.2 rfl]

end FileSystem

end DocGraph
