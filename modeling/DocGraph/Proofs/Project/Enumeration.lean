import DocGraph.Proofs.Project.Listing
import DocGraph.Proofs.Text.Pieces

/-!
# Enumerated files

What a listing finds does not depend on how the files came about. It finds the files that have the
ending and that no pattern excludes, as far as it gets by listing folders, each once and in the
order of the names that lead to them. A folder counts for nothing but what is in it, even where its
own name has the ending.

An ending may be a pattern. One without slashes and the signs of a pattern stands for itself.
-/

namespace DocGraph

variable {disk other : Disk} {folder : Path} {ending part : Text} {patterns : List Text}
  {names : Route} {files : List Path}

/-! ## Endings that stand for themselves -/

/-- That an ending has no slashes and no signs of a pattern. -/
def IsPlainEnding (ending : Text) : Prop := ∀ c ∈ ending, c ∉ ['*', '?', '[', '/']

namespace EndingPart

theorem holdsStars_of_notMem (h : '*' ∉ part) : holdsStars part = false := by
  induction part with
  | nil => rfl
  | cons c part ih =>
    obtain ⟨hc, hpart⟩ := not_or.1 (List.mem_cons.not.1 h)
    have hstart : Text.startsWith stars (c :: part) = false := by
      simp [Text.startsWith, stars, Text.after?, hc]
    rw [holdsStars, hstart, ih hpart, Bool.false_or]

/-- One star in front of an ending without stars makes no part of its own. -/
theorem read?_star (h : '*' ∉ ending) :
    read? ('*' :: ending) = some (.name (Glob.parse ('*' :: ending))) := by
  have hstars : ('*' :: ending) ≠ stars := by
    rintro heq
    obtain rfl : ending = ['*'] := (List.cons.inj heq).2
    exact h List.mem_cons_self
  have hstart : Text.startsWith stars ('*' :: ending) = false := by
    cases ending with
    | nil => rfl
    | cons c ending =>
      have hc := (not_or.1 (List.mem_cons.not.1 h)).1
      simp [Text.startsWith, stars, Text.after?, hc]
  rw [read?, if_neg hstars, holdsStars, hstart, holdsStars_of_notMem h]
  rfl

end EndingPart

theorem IsPlainEnding.readAll? (h : IsPlainEnding ending) :
    EndingPart.readAll? ending = some (literalParts ending) := by
  have hslash : ∀ c ∈ '*' :: ending, (c == '/') = false := by
    intro c hc
    rcases List.mem_cons.1 hc with rfl | hc
    · rfl
    · have hplain := h c hc
      simp only [List.mem_cons, not_or] at hplain
      simpa using hplain.2.2.2.1
  have hnames : Path.namesOf ('*' :: ending) = ['*' :: ending] := by
    rw [Path.namesOf, Text.pieces_eq_singleton hslash]
    rfl
  have hstar : '*' ∉ ending := fun hmem => h _ hmem List.mem_cons_self
  have hliteral : Glob.parse ending = ending.map .char :=
    Glob.parse_literal fun c hc hsign => h c hc (List.mem_append_left ['/'] hsign)
  rw [EndingPart.readAll?, hnames, List.mapM_cons, EndingPart.read?_star hstar, Glob.parse_star,
    hliteral]
  rfl

theorem IsPlainEnding.getLast?_ne (h : IsPlainEnding ending) : ending.getLast? ≠ some '/' := by
  intro hlast
  exact h _ (List.mem_of_getLast? hlast) (by decide)

/-! ## Runs that list files -/

/-- A listing with patterns gives its files, unless it is refused. -/
theorem outcome_sourcePaths_of_plain (hending : IsPlainEnding ending) :
    (sourcePaths (listing disk folder ending (patterns.map .pattern))).outcome =
      match listingRefusal? disk folder (literalParts ending) with
      | some error => .error (.file error)
      | none => .ok (endingPaths disk folder (literalParts ending) patterns) := by
  obtain ⟨hfault, hfiles⟩ :=
    listing_of_parts hending.readAll? hending.getLast?_ne disk folder patterns
  have hsteps := @Run.outcome_forEach _ _ (listing disk folder ending (patterns.map .pattern)) _
    ListingStep.fault? ListingStep.file? fun step _ => ListingStep.outcome_found? step
  rw [sourcePaths, Run.bind_eq, Run.outcome_andThen, hsteps, hfault]
  cases hrefusal : listingRefusal? disk folder (literalParts ending) with
  | some error => rfl
  | none =>
    have hvalues : ((listing disk folder ending (patterns.map .pattern)).map
        ListingStep.file?).filterMap id =
          endingPaths disk folder (literalParts ending) patterns := by
      rw [List.filterMap_map, ← hfiles hrefusal]
      rfl
    rw [← hvalues]
    rfl

/-! ## What is enumerated -/

/-- That a listing of a folder meets a file under some names, locked or not. -/
def LeadsToFile (disk : Disk) (folder : Path) (names : Route) : Prop :=
  ∃ object, object ≠ .folder ∧ Meets disk folder names object

theorem leadsToFile_iff {route : Route} (hspot : disk.spot folder = .object route .folder) :
    LeadsToFile disk folder names ↔
      names ∈ ((disk.files.filesBelow route).map (·.1)).filter (disk.sees folder) := by
  rw [List.mem_filter, List.mem_map]
  constructor
  · rintro ⟨object, hobject, hmeets⟩
    obtain ⟨hthere, hsees⟩ := (meets_iff hspot).1 hmeets
    exact ⟨⟨(names, object), FileSystem.mem_filesBelow_iff.2 ⟨hobject, hthere⟩, rfl⟩, hsees⟩
  · rintro ⟨⟨⟨found, object⟩, hbelow, rfl⟩, hsees⟩
    obtain ⟨hobject, hthere⟩ := FileSystem.mem_filesBelow_iff.1 hbelow
    exact ⟨object, hobject, (meets_iff hspot).2 ⟨hthere, hsees⟩⟩

/-- That a list holds the files below a folder that have an ending and that no pattern excludes,
each once and in the component-wise order of their paths. -/
structure Enumerates (disk : Disk) (folder : Path) (ending : Text) (patterns : List Text)
    (files : List Path) : Prop where
  mem_iff : ∀ file, file ∈ files ↔ ∃ names, LeadsToFile disk folder names ∧
    HasEnding ending names ∧ anyExcludes patterns ⟨.here, names⟩ = false ∧
    file = folder.behind names
  nodup : files.Nodup
  ascending : files.Pairwise fun a b => Path.namesLe b.names a.names = false

theorem enumerates_endingPaths (patterns : List Text)
    (h : listingRefusal? disk folder (literalParts ending) = none) :
    Enumerates disk folder ending patterns
      (endingPaths disk folder (literalParts ending) patterns) where
  mem_iff file := by
    rw [mem_endingPaths_iff]
    simp only [fits_literalParts_iff]
    constructor
    · rintro ⟨names, object, ⟨route, hspot, hthere, hsees⟩, hfile, hending, hkept, rfl⟩
      rw [Disk.hasFile_behind hspot hthere (Disk.refusal?_of_hasFile hfile), bne_iff_ne] at hfile
      exact ⟨names, ⟨object, hfile, route, hspot, hthere, hsees⟩, hending, hkept, rfl⟩
    · rintro ⟨names, ⟨object, hobject, hmeets⟩, hending, hkept, rfl⟩
      have hrefusal := ((listingRefusal?_eq_none_iff.1 h).2 names object hmeets).2
        (fits_literalParts_iff.2 hending)
      refine ⟨names, object, hmeets, ?_, hending, hkept, rfl⟩
      obtain ⟨route, hspot, hthere, -⟩ := hmeets
      rwa [Disk.hasFile_behind hspot hthere hrefusal, bne_iff_ne]
  nodup := nodup_of_ascending (endingPaths_ascending disk folder _ patterns)
  ascending := endingPaths_ascending disk folder _ patterns

/-- No folder is among the files. -/
theorem Enumerates.folder_notMem (h : Enumerates disk folder ending patterns files)
    {route : Route} (hspot : disk.spot folder = .object route .folder)
    (hfolder : disk.files.objectAt (route ++ names) = some .folder) :
    folder.behind names ∉ files := by
  rw [h.mem_iff]
  rintro ⟨found, ⟨object, hobject, hmeets⟩, -, -, hpath⟩
  obtain rfl : names = found := by simpa [Path.behind] using hpath
  obtain ⟨hthere, -⟩ := (meets_iff hspot).1 hmeets
  exact hobject (Option.some.inj (hthere.symm.trans hfolder))

/-- Where the same files can be found, the same list enumerates them. -/
theorem Enumerates.unique {found : List Path} (h : Enumerates disk folder ending patterns files)
    (hother : Enumerates other folder ending patterns found)
    (hsame : ∀ names, HasEnding ending names →
      (LeadsToFile other folder names ↔ LeadsToFile disk folder names)) : found = files := by
  refine eq_of_ascending hother.ascending h.ascending fun file => ?_
  rw [hother.mem_iff, h.mem_iff]
  constructor
  · rintro ⟨names, hthere, hending, hrest⟩
    exact ⟨names, (hsame names hending).1 hthere, hending, hrest⟩
  · rintro ⟨names, hthere, hending, hrest⟩
    exact ⟨names, (hsame names hending).2 hthere, hending, hrest⟩

/-- The files that a listing meets are enumerated, unless it is refused, and any other disk on which
the same files are met gives the same list. Where all below the folder is open, these are the files
at any depth below it. -/
theorem sourcePaths_enumerates (disk : Disk) (folder : Path) (patterns : List Text)
    (hending : IsPlainEnding ending) :
    (∀ error, listingRefusal? disk folder (literalParts ending) = some error →
      (sourcePaths (listing disk folder ending (patterns.map .pattern))).outcome =
        .error (.file error)) ∧
    (listingRefusal? disk folder (literalParts ending) = none → ∃ files,
      (sourcePaths (listing disk folder ending (patterns.map .pattern))).outcome = .ok files ∧
      Enumerates disk folder ending patterns files ∧
      (∀ route names, disk.spot folder = .object route .folder →
        disk.files.objectAt (route ++ names) = some .folder → folder.behind names ∉ files) ∧
      ∀ other : Disk, listingRefusal? other folder (literalParts ending) = none →
        (∀ names, HasEnding ending names →
          (LeadsToFile other folder names ↔ LeadsToFile disk folder names)) →
        (sourcePaths (listing other folder ending (patterns.map .pattern))).outcome =
          .ok files) ∧
    (IsOpen disk folder → listingRefusal? disk folder (literalParts ending) = none ∧
      ∀ names, LeadsToFile disk folder names ↔ ∃ route object,
        disk.spot folder = .object route .folder ∧ object ≠ .folder ∧
          disk.files.objectAt (route ++ names) = some object) := by
  refine ⟨fun error herror => ?_, fun hfolder => ?_, fun hopen => ?_⟩
  · rw [outcome_sourcePaths_of_plain hending, herror]
  · have hfiles := enumerates_endingPaths patterns hfolder
    refine ⟨_, by rw [outcome_sourcePaths_of_plain hending, hfolder], hfiles,
      fun route names => hfiles.folder_notMem, fun other hother hsame => ?_⟩
    rw [outcome_sourcePaths_of_plain hending, hother,
      hfiles.unique (enumerates_endingPaths patterns hother) hsame]
  · obtain ⟨hrefusal, hmeets⟩ := hopen.listed (literalParts ending)
    refine ⟨hrefusal, fun names => ⟨?_, ?_⟩⟩
    · rintro ⟨object, hobject, route, hspot, hthere, -⟩
      exact ⟨route, object, hspot, hobject, hthere⟩
    · rintro ⟨route, object, hspot, hobject, hthere⟩
      exact ⟨object, hobject, (hmeets route names object hspot).2 hthere⟩

/-- A folder whose name has the ending comes before a file that begins with that name, although a
hyphen comes before a slash. It does so too where the file was there first. -/
theorem sourcePaths_enumerates_of_named_folder :
    let start := FileSystem.empty.put [] "p".toList .folder
    let inner : Route := ["p".toList, "a.java".toList]
    let first := ((start.put ["p".toList] "a.java".toList .folder).put inner "x.java".toList
      (.file [])).put ["p".toList] "a.java-b.java".toList .locked
    let second := ((start.put ["p".toList] "a.java-b.java".toList (.file [])).put ["p".toList]
      "a.java".toList .folder).put inner "x.java".toList (.file [])
    let folder : Path := ⟨.root, ["p".toList]⟩
    let files : List Path := [⟨.root, inner ++ ["x.java".toList]⟩,
      ⟨.root, ["p".toList, "a.java-b.java".toList]⟩]
    IsPlainEnding javaEnding ∧ IsOpen ⟨first, []⟩ folder ∧
      Enumerates ⟨first, []⟩ folder javaEnding [] files ∧
      (⟨.root, inner⟩ : Path) ∉ files ∧
      (sourcePaths (listing ⟨first, []⟩ folder javaEnding [])).outcome = .ok files ∧
      (sourcePaths (listing ⟨second, []⟩ folder javaEnding [])).outcome = .ok files := by
  intro start inner first second folder files
  have hending : IsPlainEnding javaEnding := by
    have hplain : (javaEnding.all fun c => decide (c ∉ ['*', '?', '[', '/'])) = true := by decide
    exact fun c hc => of_decide_eq_true (List.all_eq_true.1 hplain c hc)
  have hfirst : (⟨first, []⟩ : Disk).spot folder = .object ["p".toList] .folder := by
    decide +kernel
  have hsecond : (⟨second, []⟩ : Disk).spot folder = .object ["p".toList] .folder := by
    decide +kernel
  have hthere : ∀ names, LeadsToFile ⟨first, []⟩ folder names ↔
      names ∈ [["a.java".toList, "x.java".toList], ["a.java-b.java".toList]] := by
    have hbelow : ((first.filesBelow ["p".toList]).map (·.1)).filter
        ((⟨first, []⟩ : Disk).sees folder) =
          [["a.java".toList, "x.java".toList], ["a.java-b.java".toList]] := by
      decide +kernel
    exact fun names => by rw [leadsToFile_iff hfirst, hbelow]
  have hsame : ∀ names, HasEnding javaEnding names →
      (LeadsToFile ⟨second, []⟩ folder names ↔ LeadsToFile ⟨first, []⟩ folder names) := by
    have hbelow : ((second.filesBelow ["p".toList]).map (·.1)).filter
        ((⟨second, []⟩ : Disk).sees folder) =
          [["a.java-b.java".toList], ["a.java".toList, "x.java".toList]] := by
      decide +kernel
    intro names _
    rw [hthere, leadsToFile_iff hsecond, hbelow, List.mem_pair, List.mem_pair]
    exact or_comm
  have hopen : IsOpen ⟨first, []⟩ folder := (isOpen_iff hfirst).2 (by decide +kernel)
  obtain ⟨-, hlisted, hall⟩ := sourcePaths_enumerates ⟨first, []⟩ folder [] hending
  obtain ⟨found, hrun, hfound, hfolders, hcanonical⟩ := hlisted (hall hopen).1
  have hfiles : found = files := by
    refine eq_of_ascending hfound.ascending (by decide) fun file => ?_
    simp only [hfound.mem_iff, hthere]
    constructor
    · rintro ⟨names, hnames, -, -, rfl⟩
      rcases List.mem_pair.1 hnames with rfl | rfl <;> decide
    · intro hfile
      rcases List.mem_pair.1 hfile with rfl | rfl
      · exact ⟨["a.java".toList, "x.java".toList], by decide,
          ⟨["a.java".toList], "x.java".toList, rfl, by decide⟩, rfl, rfl⟩
      · exact ⟨["a.java-b.java".toList], by decide, ⟨[], _, rfl, by decide⟩, rfl, rfl⟩
  subst hfiles
  exact ⟨hending, hopen, hfound, hfolders _ ["a.java".toList] hfirst (by decide +kernel), hrun,
    hcanonical _ (by decide +kernel) hsame⟩

/-- A folder whose name has 256 bytes holds no file, and yet its files are not enumerated, not even
as none. -/
theorem no_sourcePaths_on_long_name :
    let folder : Path := ⟨.root, [List.replicate 256 'a']⟩
    Enumerates ⟨.empty, []⟩ folder javaEnding [] [] ∧
      ¬ ∃ files, (sourcePaths (listing ⟨.empty, []⟩ folder javaEnding [])).outcome =
        .ok files := by
  intro folder
  have hrefusal : (⟨.empty, []⟩ : Disk).refusal? folder = some ⟨.nameTooLong, folder⟩ := by
    decide +kernel
  have hnone : ∀ names, ¬ LeadsToFile ⟨.empty, []⟩ folder names := by
    rintro names ⟨object, -, route, hspot, -⟩
    cases (Disk.refusal?_of_spot hspot).symm.trans hrefusal
  refine ⟨⟨fun file => ?_, List.nodup_nil, List.Pairwise.nil⟩, ?_⟩
  · constructor
    · intro hfile
      cases hfile
    · rintro ⟨names, hthere, -⟩
      exact absurd hthere (hnone names)
  · rintro ⟨files, houtcome⟩
    have hrun : (sourcePaths (listing ⟨.empty, []⟩ folder javaEnding [])).outcome =
        .error (.file ⟨.nameTooLong, folder⟩) := by
      decide +kernel
    cases hrun.symm.trans houtcome

end DocGraph
