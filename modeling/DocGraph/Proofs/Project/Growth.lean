import DocGraph.Proofs.Files.Growth
import DocGraph.Proofs.Java.Dependencies
import DocGraph.Proofs.Project.Relisting
import DocGraph.Proofs.Project.WorkingFolder
import Mathlib.Data.List.Flatten

/-!
# Growing projects

A project that gains a source file may have more types and has no fewer. So each graph is charged
with what it was charged with before, and at most more, while it is warned of no more than before.
What counts as checked stays the same, as each graph is located as before.

The last is not for nothing where the file brings folders of its own. A path that runs through such
a folder and out of it again was a dead end before. This goes for the path of the source folder as
well.
-/

namespace DocGraph

open FileSystem (Gains)
open Java (usedTypes)

/-- That a report says at least as much of what is not documented as one before it, at most as much
of what is not used, and counts the same. -/
structure Report.Tightens (before after : Report) : Prop where
  errors : before.errors.Sublist after.errors
  warnings : after.warnings.Sublist before.warnings
  checked : after.checked = before.checked
  skipped : after.skipped = before.skipped

variable {files grown : FileSystem} {route cwd : Route} {content : Bytes}
variable {base : Option Path} {folder : Path} {patterns : List Text} {tagPrefix : Text}
variable {entry : Entry} {entries : List Entry} {name ignoreList : Text} {source : SourceFile}
variable {few many : List Text}

/-! ## More types -/

theorem usedTypes_mono (h : few ⊆ many) (declaration : Java.Tree) :
    usedTypes declaration few ⊆ usedTypes declaration many := by
  intro name hname
  rw [Java.mem_usedTypes_iff] at hname ⊢
  exact ⟨hname.1, h hname.2.1, hname.2.2⟩

theorem undocumented_sublist (h : few ⊆ many) (declaration : Java.Tree) :
    (comparisonWith entry ignoreList few declaration).undocumented.Sublist
      (comparisonWith entry ignoreList many declaration).undocumented :=
  (Text.sort_sublist (nodup_eraseDups _) (nodup_eraseDups _)
    (usedTypes_mono h declaration)).filter _

theorem unused_sublist (h : few ⊆ many) (declaration : Java.Tree) :
    (comparisonWith entry ignoreList many declaration).unused.Sublist
      (comparisonWith entry ignoreList few declaration).unused := by
  apply List.monotone_filter_right
  intro name hname
  simp only [comparisonWith, Bool.and_eq_true, Bool.not_eq_true', List.elem_eq_mem,
    decide_eq_false_iff_not, Text.mem_sort] at hname ⊢
  exact ⟨fun hused => hname.1 (usedTypes_mono h declaration hused), hname.2⟩

section

variable [Java.SourceReader]

/-- With more types, a report tightens, if each graph is judged against the same declaration. -/
theorem tightens_reportWith {first second : Disk} (h : few ⊆ many)
    (hjudged : ∀ entry ∈ classGraphs entries,
      judgedType? second base entry = judgedType? first base entry) :
    (reportWith first base tagPrefix few entries).Tightens
      (reportWith second base tagPrefix many entries) := by
  rw [reportWith_congr hjudged]
  have hfew := accounts_reportWith first base tagPrefix few entries
  have hmany := accounts_reportWith first base tagPrefix many entries
  have hchecked := hmany.checked.trans hfew.checked.symm
  refine ⟨?_, ?_, hchecked, ?_⟩
  · simp only [reportWith, Report.errors_ofAll, List.flatMap_map, Report.errors_ofCheck]
    refine List.Sublist.flatMap_right _ fun entry _ => List.Sublist.map _ ?_
    rw [judgement, judgement]
    cases judgedType? first base entry with
    | none => exact List.Sublist.refl _
    | some declaration => exact undocumented_sublist h declaration
  · simp only [reportWith, Report.warnings_ofAll, List.flatMap_map, Report.warnings_ofCheck]
    refine List.Sublist.flatMap_right _ fun entry _ => List.Sublist.map _ ?_
    rw [judgement, judgement]
    cases judgedType? first base entry with
    | none => exact List.Sublist.refl _
    | some declaration => exact unused_sublist h declaration
  · have htotal := hmany.total.trans hfew.total.symm
    omega

/-! ## More files -/

theorem mem_sourcesBelow_of_gains (h : files.Gains grown route content)
    (hsource : source ∈ sourcesBelow ⟨files, cwd⟩ folder patterns) :
    source ∈ sourcesBelow ⟨grown, cwd⟩ folder patterns := by
  rw [mem_sourcesBelow_iff] at hsource ⊢
  obtain ⟨names, bytes, hold, rfl⟩ := hsource
  obtain ⟨place, hspot, hobject, -⟩ := hold.met
  refine ⟨names, bytes, ?_, rfl⟩
  exact ((Disk.keepsFolders_of_gains h).isSource_iff hspot ((h.kept hobject).trans hobject.symm)
    (h.access hobject)).2 hold

/-- A project that gains a file has no fewer types. -/
theorem indexBelow_mono (h : files.Gains grown route content) :
    indexBelow ⟨files, cwd⟩ folder patterns ⊆ indexBelow ⟨grown, cwd⟩ folder patterns := by
  intro name hname
  rw [indexBelow, List.mem_eraseDups, List.mem_flatten] at hname ⊢
  obtain ⟨names, hnames, hname⟩ := hname
  obtain ⟨source, hsource, rfl⟩ := List.mem_map.1 hnames
  exact ⟨_, List.mem_map.2 ⟨source, mem_sourcesBelow_of_gains h hsource, rfl⟩, hname⟩

omit [Java.SourceReader] in
/-- What has come with a file that can be read is on the way to it, so it can be looked up. -/
theorem refusal?_of_gained {root names inner : Route} {present : FileObject}
    (h : files.Gains grown (root ++ names) content)
    (hroot : (⟨grown, cwd⟩ : Disk).spot folder = .object root .folder)
    (hread : (⟨grown, cwd⟩ : Disk).read (folder.behind names) = .ok content)
    (hnone : files.objectAt (root ++ inner) = none)
    (hpresent : grown.objectAt (root ++ inner) = some present) :
    (⟨grown, cwd⟩ : Disk).refusal? (folder.behind inner) = none := by
  obtain ⟨hrefusal, -⟩ := (Disk.read_behind hroot h.added).1 hread
  rcases h.origin hpresent with hold | hway
  · cases hnone.symm.trans hold
  · exact Disk.refusal?_of_prefix hroot h.added hpresent
      ((List.prefix_append_right_inj root).1 hway) hrefusal

omit [Java.SourceReader] in
/-- A folder that is new has a listing that is not refused. -/
theorem sourceRefusal?_of_new_folder {root : Route}
    (hroot : (⟨grown, cwd⟩ : Disk).spot folder = .object root .folder)
    (hopen : ∀ inner present, grown.objectAt (root ++ inner) = some present →
      (⟨grown, cwd⟩ : Disk).refusal? (folder.behind inner) = none) :
    sourceRefusal? ⟨grown, cwd⟩ folder = none := by
  refine listingRefusal?_eq_none_iff.2 ⟨Disk.refusal?_of_spot hroot, fun inner object hmeets => ?_⟩
  obtain ⟨hobject, -⟩ := (meets_iff hroot).1 hmeets
  have hrefusal := hopen inner object hobject
  refine ⟨fun _ => ?_, fun _ => hrefusal⟩
  rw [Disk.refusal?_behind hroot hobject] at hrefusal
  by_contra hlong
  rw [if_pos (Nat.not_le.1 hlong)] at hrefusal
  cases hrefusal

omit [Java.SourceReader] in
/-- To gain a file that can be read refuses no listing, unless the path of the folder comes to lead
to one that was there. -/
theorem sourceRefusal?_of_gains {root names : Route}
    (h : files.Gains grown (root ++ names) content)
    (hroot : (⟨grown, cwd⟩ : Disk).spot folder = .object root .folder)
    (hread : (⟨grown, cwd⟩ : Disk).read (folder.behind names) = .ok content)
    (hthere : sourceRefusal? ⟨grown, cwd⟩ folder = none ∨ (files.objectAt root = some .folder →
      (⟨files, cwd⟩ : Disk).spot folder = .object root .folder)) :
    sourceRefusal? ⟨grown, cwd⟩ folder = sourceRefusal? ⟨files, cwd⟩ folder := by
  have hkeeps : (⟨files, cwd⟩ : Disk).KeepsFolders ⟨grown, cwd⟩ := Disk.keepsFolders_of_gains h
  by_cases hspot : (⟨files, cwd⟩ : Disk).spot folder = .object root .folder
  · exact Disk.KeepsBelow.listingRefusal?_eq ⟨hkeeps, hspot, fun hold => ⟨_, h.kept hold, id⟩,
      refusal?_of_gained h hroot hread⟩ javaParts
  have hbefore : sourceRefusal? ⟨files, cwd⟩ folder = none := by
    rw [sourceRefusal?, listingRefusal?]
    split
    · next place hplace =>
      cases hroot.symm.trans (Disk.spot_of_gains h hplace)
      exact absurd hplace hspot
    · exact hkeeps.refusal?_eq_none (Disk.refusal?_of_spot hroot)
  rw [hbefore]
  rcases hthere with hafter | hthere
  · exact hafter
  -- The folder is new, so everything below it is on the way to the file.
  refine sourceRefusal?_of_new_folder hroot fun inner present hpresent => ?_
  refine refusal?_of_gained h hroot hread ?_ hpresent
  rw [Option.eq_none_iff_forall_ne_some]
  intro object hobject
  refine hspot (hthere ?_)
  by_cases hinner : inner = []
  · rw [hinner, List.append_nil] at hobject
    cases (h.kept hobject).symm.trans (Disk.objectAt_of_spot hroot)
    exact hobject
  · exact FileSystem.folder_of_objectAt_append hobject hinner

theorem judgedType?_of_gains (h : files.Gains grown route content)
    (hlocate : (⟨grown, cwd⟩ : Disk).locate base (Path.ofText entry.file) =
      (⟨files, cwd⟩ : Disk).locate base (Path.ofText entry.file))
    (hobstacle : (⟨files, cwd⟩ : Disk).obstacle? base (Path.ofText entry.file) = none) :
    judgedType? ⟨grown, cwd⟩ base entry = judgedType? ⟨files, cwd⟩ base entry := by
  rw [judgedType?, judgedType?, Disk.resolved?_congr hlocate hobstacle]
  cases hresolved : (⟨files, cwd⟩ : Disk).resolved? base (Path.ofText entry.file) with
  | none => rfl
  | some file =>
    have hcontent := Disk.content?_of_gains h (Disk.hasFile_of_resolved? hresolved)
    simp only [Option.bind_eq_bind, Option.bind_some, Disk.sourceAt?, hcontent]

/-! ## Validations -/

/-- Whatever source file a project gains below its folder, its validation tightens, unless a graph
has a path that leads to the file, or a path comes by a new folder to be located in another way:
that of a graph, or that of the source folder if its listing is refused now. -/
theorem validate_tightens {root names : Route}
    (h : files.Gains grown (root ++ names) content)
    (hroot : (⟨grown, cwd⟩ : Disk).spot folder = .object root .folder)
    (hread : (⟨grown, cwd⟩ : Disk).read (folder.behind names) = .ok content)
    (hpaths : ∀ entry ∈ classGraphs entries,
      ∀ path ∈ Path.candidates base (Path.ofText entry.file), ∀ object,
        (⟨grown, cwd⟩ : Disk).spot path ≠ .object (root ++ names) object)
    (hfolders : files.objectAt (root ++ names).dropLast ≠ some .folder →
      (sourceRefusal? ⟨grown, cwd⟩ folder = none ∨ (files.objectAt root = some .folder →
        (⟨files, cwd⟩ : Disk).spot folder = .object root .folder)) ∧
      ∀ entry ∈ classGraphs entries,
        (⟨grown, cwd⟩ : Disk).locate base (Path.ofText entry.file) =
          (⟨files, cwd⟩ : Disk).locate base (Path.ofText entry.file)) :
    let settings : ValidationSettings := ⟨folder, base, patterns.map .pattern, tagPrefix⟩
    (∃ fault, (validate ⟨files, cwd⟩ settings entries).outcome = .error fault ∧
      (validate ⟨grown, cwd⟩ settings entries).outcome = .error fault) ∨
    ∃ before after, (validate ⟨files, cwd⟩ settings entries).outcome = .ok before ∧
      (validate ⟨grown, cwd⟩ settings entries).outcome = .ok after ∧ before.Tightens after := by
  intro settings
  have hlocated : (sourceRefusal? ⟨grown, cwd⟩ folder = none ∨ (files.objectAt root = some .folder →
        (⟨files, cwd⟩ : Disk).spot folder = .object root .folder)) ∧
      ∀ entry ∈ classGraphs entries,
        (⟨grown, cwd⟩ : Disk).locate base (Path.ofText entry.file) =
          (⟨files, cwd⟩ : Disk).locate base (Path.ofText entry.file) := by
    by_cases hfolder : files.objectAt (root ++ names).dropLast = some .folder
    · exact ⟨.inr fun _ => (Disk.keepsFolders_before_gains h hfolder).spot hroot,
        fun entry hentry => Disk.locate_of_gains h hfolder (hpaths entry hentry)⟩
    · exact hfolders hfolder
  obtain ⟨hthere, hlocate⟩ := hlocated
  have hrefused : validationRefusal? ⟨grown, cwd⟩ folder base (classGraphs entries) =
      validationRefusal? ⟨files, cwd⟩ folder base (classGraphs entries) :=
    validationRefusal?_congr (sourceRefusal?_of_gains h hroot hread hthere) fun entry hentry =>
      Disk.obstacle?_congr (hlocate entry hentry)
  cases hrefusal : validationRefusal? ⟨files, cwd⟩ folder base (classGraphs entries) with
  | some error =>
    refine .inl ⟨.file error, ?_, ?_⟩
    · rw [outcome_validate, hrefusal]
    · rw [outcome_validate, hrefused, hrefusal]
  | none =>
    refine .inr ⟨_, _, by rw [outcome_validate, hrefusal],
      by rw [outcome_validate, hrefused, hrefusal], ?_⟩
    refine tightens_reportWith (indexBelow_mono h) fun entry hentry => ?_
    exact judgedType?_of_gains h (hlocate entry hentry)
      (obstacle?_of_validationRefusal? hrefusal hentry)

end

/-- Once the project has the type that a graph documents, the warning about it goes. -/
theorem validate_tightens_by_documented_type :
    let there : Route := ["p".toList, "src".toList]
    let text := Utf8.encode "class A \x7b B b; \x7d".toList
    let files := (((FileSystem.empty.put [] "p".toList .folder).put ["p".toList] "A.java".toList
      (.file text)).put ["p".toList] "src".toList .folder)
    let content := Utf8.encode "class B \x7b\x7d".toList
    let grown := files.put there "B.java".toList (.file content)
    let entry : Entry :=
      ⟨"A".toList, "A.java".toList, 1, .architectural, TagType.graph.name,
        "A\n├─[uses]→ B".toList, none⟩
    let base : Path := ⟨.root, ["p".toList]⟩
    let folder : Path := ⟨.root, there⟩
    let settings : ValidationSettings := ⟨folder, some base, [], defaultTagPrefix⟩
    files.Gains grown (there ++ ["B.java".toList]) content ∧
      (⟨grown, []⟩ : Disk).spot folder = .object there .folder ∧
      (⟨grown, []⟩ : Disk).read (folder.behind ["B.java".toList]) = .ok content ∧
      (∀ other ∈ classGraphs [entry],
        ∀ path ∈ Path.candidates (some base) (Path.ofText other.file), ∀ object,
          (⟨grown, []⟩ : Disk).spot path ≠ .object (there ++ ["B.java".toList]) object) ∧
      files.objectAt (there ++ ["B.java".toList]).dropLast = some .folder ∧
      ∃ before after, (validate ⟨files, []⟩ settings [entry]).outcome = .ok before ∧
        (validate ⟨grown, []⟩ settings [entry]).outcome = .ok after ∧
        before.warnings.length = 1 ∧ after.warnings = [] ∧ before.Tightens after := by
  intro there text files content grown entry base folder settings
  have hgains : files.Gains grown (there ++ ["B.java".toList]) content :=
    FileSystem.gains_put (by decide +kernel) (by decide +kernel)
  have hroot : (⟨grown, []⟩ : Disk).spot folder = .object there .folder := by decide +kernel
  have hread : (⟨grown, []⟩ : Disk).read (folder.behind ["B.java".toList]) = .ok content :=
    Disk.read_eq_ok_iff.2 ⟨there ++ ["B.java".toList], by decide +kernel, by decide +kernel⟩
  have hspots : ∀ other ∈ classGraphs [entry],
      ∀ path ∈ Path.candidates (some base) (Path.ofText other.file),
        (⟨grown, []⟩ : Disk).spot path = .vacant [] "A.java".toList ∨
          (⟨grown, []⟩ : Disk).spot path = .object ["p".toList, "A.java".toList] (.file text) := by
    decide +kernel
  have hpaths : ∀ other ∈ classGraphs [entry],
      ∀ path ∈ Path.candidates (some base) (Path.ofText other.file), ∀ object,
        (⟨grown, []⟩ : Disk).spot path ≠ .object (there ++ ["B.java".toList]) object := by
    intro other hother path hpath object hspot
    rcases hspots other hother path hpath with hvacant | hold
    · cases hvacant.symm.trans hspot
    · have hroute := (Spot.object.inj (hold.symm.trans hspot)).1
      revert hroute
      decide
  have hfolder : files.objectAt (there ++ ["B.java".toList]).dropLast = some .folder := by
    decide +kernel
  refine ⟨hgains, hroot, hread, hpaths, hfolder, ?_⟩
  have hbefore : (validate ⟨files, []⟩ settings [entry]).outcome =
      .ok ⟨[], [Report.unusedMessage entry "B".toList], 1, 0⟩ := by
    decide +kernel
  have hafter : (validate ⟨grown, []⟩ settings [entry]).outcome = .ok ⟨[], [], 1, 0⟩ := by
    decide +kernel
  obtain ⟨fault, hfault, -⟩ | ⟨before, after, hfirst, hsecond, htightens⟩ :=
    @validate_tightens files grown [] content (some base) folder [] defaultTagPrefix [entry] _ there
      ["B.java".toList] hgains hroot hread hpaths fun hnew => absurd hfolder hnew
  · cases hbefore.symm.trans hfault
  · cases hbefore.symm.trans hfirst
    cases hafter.symm.trans hsecond
    exact ⟨_, _, hbefore, hafter, rfl, rfl, htightens⟩

/-- The path of a graph may lead through the folder of the new file and out of it again. It was
passed over and is checked now, although nothing leads to the file. -/
theorem validate_checks_behind_new_folder :
    let there : Route := ["p".toList, "src".toList]
    let text := Utf8.encode "class A \x7b\x7d".toList
    let files := (((FileSystem.empty.put [] "p".toList .folder).put ["p".toList] "A.java".toList
      (.file text)).put ["p".toList] "src".toList .folder)
    let content := Utf8.encode "class B \x7b\x7d".toList
    let grown := (files.put there "pkg".toList .folder).put (there ++ ["pkg".toList])
      "B.java".toList (.file content)
    let route := there ++ ["pkg".toList] ++ ["B.java".toList]
    let entry : Entry :=
      ⟨"A".toList, "src/pkg/../../A.java".toList, 1, .architectural, TagType.graph.name, "A".toList,
        none⟩
    let base : Path := ⟨.root, ["p".toList]⟩
    let settings : ValidationSettings := ⟨⟨.root, there⟩, some base, [], defaultTagPrefix⟩
    files.Gains grown route content ∧
      (∀ path ∈ Path.candidates (some base) (Path.ofText entry.file), ∀ object,
        (⟨grown, []⟩ : Disk).spot path ≠ .object route object) ∧
      ∃ before after, (validate ⟨files, []⟩ settings [entry]).outcome = .ok before ∧
        (validate ⟨grown, []⟩ settings [entry]).outcome = .ok after ∧
        before.checked = 0 ∧ before.skipped = 1 ∧ after.checked = 1 ∧ after.skipped = 0 := by
  intro there text files content grown route entry base settings
  have hgains : files.Gains grown route content :=
    .of_put_folder (by decide +kernel) (by decide +kernel)
      (FileSystem.gains_put (by decide +kernel) (by decide +kernel)) (List.prefix_append _ _)
  have hspots : ∀ path ∈ Path.candidates (some base) (Path.ofText entry.file),
      (⟨grown, []⟩ : Disk).spot path = .blocked .missing ∨
        (⟨grown, []⟩ : Disk).spot path = .object ["p".toList, "A.java".toList] (.file text) := by
    decide +kernel
  refine ⟨hgains, ?_, ⟨[], [], 0, 1⟩, ⟨[], [], 1, 0⟩, by decide +kernel, by decide +kernel, rfl,
    rfl, rfl, rfl⟩
  intro path hpath object hspot
  rcases hspots path hpath with hmissing | hold
  · cases hmissing.symm.trans hspot
  · have hroute := (Spot.object.inj (hold.symm.trans hspot)).1
    revert hroute
    decide

end DocGraph
