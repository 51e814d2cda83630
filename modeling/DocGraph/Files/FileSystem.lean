import DocGraph.Files.Path
import DocGraph.Text.Utf8

/-!
# File systems

A file system gives each of its routes one object: a file with content, a locked file, which exists
but cannot be opened, or a folder. The root is always a folder and has no entry of its own. There
are no links: an object has one route, and what is at it is nowhere else.

Every route is unique, ends in a proper name, and lies in a folder. What may be done with an object
depends on the object; where there is none, nothing is denied to one that is put there. `put`,
`remove` and `restrict` keep this, and `objectAt_put` says what `put` does to each route.
-/

namespace DocGraph

/-- What stands at a route. -/
inductive FileObject
  | file (content : Bytes)
  | locked
  | folder
deriving DecidableEq, Repr

/-- What may be done with an object. To read a folder is to list it, to write to it is to change
which objects are in it, and only where it may be searched is a name looked up in it. -/
structure Access where
  read : Bool
  write : Bool
  search : Bool
deriving DecidableEq, Repr

/-- Nothing is denied. -/
def Access.full : Access := ⟨true, true, true⟩

/-- The most bytes that a name may have. -/
def maxNameSize : Nat := 255

/-- Whether a text can name an object in a folder. -/
def isFileName (name : Text) : Bool :=
  !name.isEmpty && name != ['.'] && name != Path.up &&
    name.all (fun c => c != '/' && c != '\x00') && Utf8.size name ≤ maxNameSize

/-- The object that a list of entries gives to a route. -/
def objectIn (objects : List (Route × FileObject)) (route : Route) : Option FileObject :=
  if route = [] then some .folder else (objects.find? (·.1 == route)).map (·.2)

/-- The objects of a file system by their routes, and what may be done with them. -/
structure FileSystem where
  objects : List (Route × FileObject)
  access : Route → Access
  distinct : (objects.map (·.1)).Nodup
  rooted : ∀ route ∈ objects.map (·.1), ∃ folder name,
    route = folder ++ [name] ∧ isFileName name = true ∧ objectIn objects folder = some .folder
  open_of_none : ∀ route, objectIn objects route = none → access route = .full

namespace FileSystem

/-- A file system without objects. -/
def empty : FileSystem := ⟨[], fun _ => .full, List.nodup_nil, by simp, fun _ _ => rfl⟩

/-- The object at a route. -/
def objectAt (fs : FileSystem) (route : Route) : Option FileObject := objectIn fs.objects route

/-- Whether an object other than a folder may be put in a folder under a name. -/
def accepts (fs : FileSystem) (folder : Route) (name : Text) : Bool :=
  isFileName name && fs.objectAt folder == some .folder &&
    fs.objectAt (folder ++ [name]) != some .folder

/-- The entries with an object put at a route. -/
def entriesWith (objects : List (Route × FileObject)) (route : Route) (object : FileObject) :
    List (Route × FileObject) :=
  objects.filter (fun entry => entry.1 != route) ++ [(route, object)]

theorem objectIn_entriesWith {objects : List (Route × FileObject)} {route other : Route}
    {object : FileObject} (h : other ≠ []) :
    objectIn (entriesWith objects route object) other =
      if other = route then some object else objectIn objects other := by
  have hfind : ∀ l : List (Route × FileObject), other ≠ route →
      (l.filter (fun entry => entry.1 != route)).find? (fun entry => entry.1 == other) =
        l.find? (fun entry => entry.1 == other) := by
    intro l hne
    induction l with
    | nil => rfl
    | cons entry l ih =>
      by_cases he : entry.1 = route
      · have hno : ¬ entry.1 = other := fun h' => hne (h'.symm.trans he)
        simp [he, ih, Ne.symm hne]
      · by_cases ho : entry.1 = other
        · simp [ho, hne]
        · simp [he, ho, ih]
  have hnone : (objects.filter (fun entry => entry.1 != route)).find?
      (fun entry => entry.1 == route) = none := by
    rw [List.find?_eq_none]
    intro entry hentry
    simpa using (List.mem_filter.1 hentry).2
  by_cases ho : other = route
  · subst ho
    simp [objectIn, entriesWith, h, List.find?_append, hnone]
  · have hne : ¬ (route == other) = true := by simpa using Ne.symm ho
    simp [objectIn, entriesWith, h, ho, List.find?_append, hfind objects ho, hne]

theorem distinct_entriesWith {objects : List (Route × FileObject)} {route : Route}
    {object : FileObject} (h : (objects.map (·.1)).Nodup) :
    ((entriesWith objects route object).map (·.1)).Nodup := by
  have hsub : ((objects.filter (fun entry => entry.1 != route)).map (·.1)).Nodup :=
    h.sublist (List.filter_sublist.map _)
  simp only [entriesWith, List.map_append, List.map_cons, List.map_nil]
  refine List.nodup_append.2 ⟨hsub, by simp, ?_⟩
  intro a ha b hb
  simp only [List.mem_singleton] at hb
  obtain ⟨entry, hentry, rfl⟩ := List.mem_map.1 ha
  have := (List.mem_filter.1 hentry).2
  rw [hb]
  simpa using this

/-- Puts an object at a name in a folder, in place of one that is there. Nothing is denied to it but
what was denied there. What cannot be put there changes nothing. -/
def put (fs : FileSystem) (folder : Route) (name : Text) (object : FileObject) : FileSystem :=
  if h : fs.accepts folder name = true then
    { objects := entriesWith fs.objects (folder ++ [name]) object
      access := fs.access
      distinct := distinct_entriesWith fs.distinct
      rooted := by
        simp only [accepts, Bool.and_eq_true, beq_iff_eq, bne_iff_ne] at h
        obtain ⟨⟨hname, hfolder⟩, hnot⟩ := h
        have hkeep : ∀ route, objectIn fs.objects route = some .folder →
            objectIn (entriesWith fs.objects (folder ++ [name]) object) route = some .folder := by
          intro route hroute
          by_cases hempty : route = []
          · simp [objectIn, hempty]
          · rw [objectIn_entriesWith hempty, if_neg, hroute]
            intro he
            exact hnot (by rw [← he]; exact hroute)
        intro route hroute
        simp only [entriesWith, List.map_append, List.map_cons, List.map_nil, List.mem_append,
          List.mem_singleton] at hroute
        rcases hroute with hroute | hroute
        · obtain ⟨entry, hentry, rfl⟩ := List.mem_map.1 hroute
          obtain ⟨f, n, h₁, h₂, h₃⟩ := fs.rooted entry.1
            (List.mem_map.2 ⟨entry, (List.mem_filter.1 hentry).1, rfl⟩)
          exact ⟨f, n, h₁, h₂, hkeep f h₃⟩
        · exact ⟨folder, name, hroute, hname, hkeep folder hfolder⟩
      open_of_none := by
        intro route hroute
        by_cases hempty : route = []
        · simp [objectIn, hempty] at hroute
        · rw [objectIn_entriesWith hempty] at hroute
          split at hroute
          · cases hroute
          · exact fs.open_of_none route hroute }
  else fs

@[simp] theorem access_put (fs : FileSystem) (folder : Route) (name : Text) (object : FileObject) :
    (fs.put folder name object).access = fs.access := by
  unfold put
  split <;> rfl

theorem objectAt_put {fs : FileSystem} {folder : Route} {name : Text} {object : FileObject}
    (h : fs.accepts folder name = true) (route : Route) :
    (fs.put folder name object).objectAt route =
      if route = folder ++ [name] then some object else fs.objectAt route := by
  by_cases hempty : route = []
  · have hne : ¬ [] = folder ++ [name] := by simp
    simp [objectAt, objectIn, hempty, hne]
  · simp only [objectAt, put, h, dif_pos]
    exact objectIn_entriesWith hempty

/-- Whether a route leads to an object or below it. -/
def isWithin (above route : Route) : Bool := (Path.namesAfter? above route).isSome

theorem isWithin_append {above folder : Route} (name : Text) (h : isWithin above folder = true) :
    isWithin above (folder ++ [name]) = true := by
  induction above generalizing folder with
  | nil => simp [isWithin, Path.namesAfter?]
  | cons a above ih =>
    cases folder with
    | nil => simp [isWithin, Path.namesAfter?] at h
    | cons b folder =>
      by_cases hab : a = b
      · subst hab
        simp only [isWithin, Path.namesAfter?, List.cons_append, if_true] at h ⊢
        exact ih h
      · simp [isWithin, Path.namesAfter?, hab] at h

theorem objectIn_filter {objects : List (Route × FileObject)} {keep : Route → Bool} {route : Route}
    (h : keep route = true) :
    objectIn (objects.filter (fun entry => keep entry.1)) route = objectIn objects route := by
  have hfind : (objects.filter (fun entry => keep entry.1)).find? (fun entry => entry.1 == route) =
      objects.find? (fun entry => entry.1 == route) := by
    induction objects with
    | nil => rfl
    | cons entry l ih =>
      by_cases he : entry.1 = route
      · simp [he, h]
      · cases hk : keep entry.1 <;> simp [he, hk, ih]
  simp [objectIn, hfind]

/-- Removes an object and all below it. The root itself stays. -/
def remove (fs : FileSystem) (route : Route) : FileSystem where
  objects := fs.objects.filter fun entry => !isWithin route entry.1
  access other := if isWithin route other then .full else fs.access other
  distinct := fs.distinct.sublist (List.filter_sublist.map _)
  rooted := by
    intro r hr
    obtain ⟨entry, hentry, rfl⟩ := List.mem_map.1 hr
    obtain ⟨hmem, hout⟩ := List.mem_filter.1 hentry
    obtain ⟨folder, name, h₁, h₂, h₃⟩ := fs.rooted entry.1 (List.mem_map.2 ⟨entry, hmem, rfl⟩)
    refine ⟨folder, name, h₁, h₂, ?_⟩
    have hfolder : (!isWithin route folder) = true := by
      cases hin : isWithin route folder with
      | false => rfl
      | true =>
        rw [h₁, isWithin_append name hin] at hout
        simp at hout
    rw [@objectIn_filter fs.objects (fun r => !isWithin route r) folder hfolder]
    exact h₃
  open_of_none := by
    intro other hother
    split
    · rfl
    · next hout =>
      have hkeep : (!isWithin route other) = true := by simpa using hout
      rw [@objectIn_filter fs.objects (fun r => !isWithin route r) other hkeep] at hother
      exact fs.open_of_none other hother

/-- Sets what may be done with an object. Where there is none, nothing changes. -/
def restrict (fs : FileSystem) (route : Route) (access : Access) : FileSystem where
  objects := fs.objects
  access other :=
    if other = route ∧ (fs.objectAt route).isSome = true then access else fs.access other
  distinct := fs.distinct
  rooted := fs.rooted
  open_of_none := by
    intro other hother
    rw [if_neg]
    · exact fs.open_of_none other hother
    · rintro ⟨rfl, hsome⟩
      rw [objectAt, hother] at hsome
      cases hsome

@[simp] theorem objectAt_restrict (fs : FileSystem) (route other : Route) (access : Access) :
    (fs.restrict route access).objectAt other = fs.objectAt other := rfl

/-- The names that lead from a route to an object at or below it. -/
def namesBelow (fs : FileSystem) (route : Route) : List Route :=
  fs.objects.filterMap fun entry => Path.namesAfter? route entry.1

/-- The objects that are no folders at or below a route, with the names that lead there from it. -/
def filesBelow (fs : FileSystem) (route : Route) : List (Route × FileObject) :=
  fs.objects.filterMap fun entry =>
    if entry.2 = .folder then none
    else (Path.namesAfter? route entry.1).map fun names => (names, entry.2)

end FileSystem

end DocGraph
