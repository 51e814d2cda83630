import DocGraph.Proofs.Java.Outline
import DocGraph.Proofs.Java.Preorder
import DocGraph.Proofs.Project.Relisting
import DocGraph.Proofs.Project.Validation

/-!
# What a class index holds

A class index holds the names that the source files below its folder declare, at any depth of their
syntax trees, and nothing else. A file that cannot be read takes no more than its own declarations
with it, and what is no source file counts for nothing.

Only a folder whose listing is refused has no index, not even the empty one of a folder that does
not exist.
-/

namespace DocGraph

open Java (readSource)

section

variable [Java.SourceReader]

/-- That the source file to which some names lead from a folder declares a type with a name. -/
def DeclaresAt (disk : Disk) (folder : Path) (patterns : List Text) (names : Route)
    (name : Text) : Prop :=
  ∃ content, IsSource disk folder patterns names content ∧
    (readSource (FileText.ofBytes content).text).root.Declares name

variable {disk : Disk} {folder : Path} {patterns : List Text} {root names : Route}
variable {locked : FileSystem} {name : Text}

theorem mem_indexBelow_iff : name ∈ indexBelow disk folder patterns ↔
    name ≠ [] ∧ ∃ names, DeclaresAt disk folder patterns names name := by
  rw [indexBelow, List.mem_eraseDups, ← List.flatMap_def, List.mem_flatMap]
  constructor
  · rintro ⟨source, hsource, hname⟩
    obtain ⟨names, content, hthere, rfl⟩ := mem_sourcesBelow_iff.1 hsource
    obtain ⟨hne, hdeclares⟩ := Java.Tree.mem_declaredTypeNames_iff.1 hname
    exact ⟨hne, names, content, hthere, hdeclares⟩
  · rintro ⟨hne, names, content, hthere, hdeclares⟩
    exact ⟨_, mem_sourcesBelow_iff.2 ⟨names, content, hthere, rfl⟩,
      Java.Tree.mem_declaredTypeNames_iff.2 ⟨hne, hdeclares⟩⟩

theorem nodup_indexBelow (disk : Disk) (folder : Path) (patterns : List Text) :
    (indexBelow disk folder patterns).Nodup := nodup_eraseDups _

theorem declaresAt_of_locks {other : Route} (hspot : disk.spot folder = .object root .folder)
    (h : disk.files.Locks locked (root ++ names)) :
    DeclaresAt ⟨locked, disk.cwd⟩ folder patterns other name ↔
      other ≠ names ∧ DeclaresAt disk folder patterns other name := by
  simp only [DeclaresAt, isSource_of_locks hspot h]
  constructor
  · rintro ⟨content, ⟨hsource, hne⟩, hdeclares⟩
    exact ⟨hne, content, hsource, hdeclares⟩
  · rintro ⟨hne, content, hsource, hdeclares⟩
    exact ⟨content, ⟨hsource, hne⟩, hdeclares⟩

/-- The class index of a folder holds each name that a source file declares once, and no other,
unless the listing is refused. Locking a file takes away what only this file declares. Whatever else
changes makes no difference. Where all is open, the source files are all that could be. -/
theorem classIndex_declares (disk : Disk) (folder : Path) (patterns : List Text) :
    (∀ error, sourceRefusal? disk folder = some error →
      (classIndex disk folder (patterns.map .pattern)).outcome = .error (.file error)) ∧
    (sourceRefusal? disk folder = none →
      ∃ index, (classIndex disk folder (patterns.map .pattern)).outcome = .ok index ∧
        index.Nodup ∧
        ∀ name, name ∈ index ↔
          name ≠ [] ∧ ∃ names, DeclaresAt disk folder patterns names name) ∧
    (sourceRefusal? disk folder = none → ∀ root names locked,
      disk.spot folder = .object root .folder → disk.files.Locks locked (root ++ names) →
      ∃ index, (classIndex ⟨locked, disk.cwd⟩ folder (patterns.map .pattern)).outcome = .ok index ∧
        ∀ name, name ∈ index ↔
          name ≠ [] ∧ ∃ other, other ≠ names ∧ DeclaresAt disk folder patterns other name) ∧
    (∀ other : Disk, sourceRefusal? other folder = sourceRefusal? disk folder →
      (∀ names content, IsSource other folder patterns names content ↔
        IsSource disk folder patterns names content) →
      (classIndex other folder (patterns.map .pattern)).outcome =
        (classIndex disk folder (patterns.map .pattern)).outcome) ∧
    (IsOpen disk folder → ListsAll disk folder patterns) := by
  refine ⟨?_, ?_, ?_, ?_, fun hopen => hopen.listsAll patterns⟩
  · intro error hrefusal
    rw [outcome_classIndex, hrefusal]
  · intro hrefusal
    exact ⟨_, by rw [outcome_classIndex, hrefusal], nodup_indexBelow disk folder patterns,
      fun name => mem_indexBelow_iff⟩
  · intro hrefusal root names locked hspot hlocks
    refine ⟨_, by rw [outcome_classIndex, sourceRefusal?_of_locks hspot hlocks, hrefusal],
      fun name => ?_⟩
    rw [mem_indexBelow_iff]
    simp only [declaresAt_of_locks hspot hlocks]
  · intro other hrefusal hsources
    rw [outcome_classIndex, outcome_classIndex, hrefusal, indexBelow, indexBelow,
      sourcesBelow_congr hsources]

end

/-- A file is met in a folder that can be listed, and cannot be looked up in one that is not to be
searched. -/
example :
    let files := ((FileSystem.empty.put [] ['p'] .folder).put [['p']] "A.java".toList
      (.file [])).restrict [['p']] ⟨true, true, false⟩
    (classIndex ⟨files, []⟩ ⟨.root, [['p']]⟩ []).outcome =
      .error (.file ⟨.denied, ⟨.root, [['p'], "A.java".toList]⟩⟩) := by
  decide +kernel

/-- The only source file here is locked, so that the index is empty. -/
theorem classIndex_declares_of_locked_file :
    let one : FileSystem := (FileSystem.empty.put [] "p".toList .folder).put ["p".toList]
      "B.txt".toList (.file (Utf8.encode "class B \x7b\x7d".toList))
    let files := one.put ["p".toList] "A.java".toList
      (.file (Utf8.encode "class A \x7b enum E \x7b X \x7d \x7d".toList))
    let locked := files.put ["p".toList] "A.java".toList .locked
    let folder : Path := ⟨.root, ["p".toList]⟩
    ListsAll ⟨files, []⟩ folder [] ∧
    (∃ index, (classIndex ⟨files, []⟩ folder []).outcome = .ok index ∧ index.Nodup ∧
      ∀ name, name ∈ index ↔ name ≠ [] ∧ ∃ names, DeclaresAt ⟨files, []⟩ folder [] names name) ∧
    (∃ index, (classIndex ⟨locked, []⟩ folder []).outcome = .ok index ∧
      ∀ name, name ∈ index ↔ name ≠ [] ∧
        ∃ other, other ≠ ["A.java".toList] ∧ DeclaresAt ⟨files, []⟩ folder [] other name) ∧
    (classIndex ⟨files, []⟩ folder []).outcome = .ok ["A".toList, "E".toList] ∧
    (classIndex ⟨locked, []⟩ folder []).outcome = .ok [] := by
  intro one files locked folder
  have hspot : (⟨files, []⟩ : Disk).spot folder = .object ["p".toList] .folder := by
    decide +kernel
  have hthere : files.objectAt (["p".toList] ++ ["A.java".toList]) =
      some (.file (Utf8.encode "class A \x7b enum E \x7b X \x7d \x7d".toList)) := by
    decide +kernel
  obtain ⟨-, hindex, hlocked, -, hopen⟩ := classIndex_declares ⟨files, []⟩ folder []
  have hall := hopen ((isOpen_iff hspot).2 (by decide +kernel))
  refine ⟨hall, hindex hall.refusal,
    hlocked hall.refusal _ ["A.java".toList] locked hspot (FileSystem.locks_put hthere), ?_, ?_⟩
  · decide +kernel
  · decide +kernel

/-- A folder whose name has 256 bytes holds no source file, and yet has no index. -/
theorem no_classIndex_on_long_name :
    let folder : Path := ⟨.root, [List.replicate 256 'a']⟩
    (∀ names content, ¬ IsSource ⟨.empty, []⟩ folder [] names content) ∧
      ¬ ∃ index, (classIndex ⟨.empty, []⟩ folder []).outcome = .ok index := by
  intro folder
  have hrefusal : (⟨.empty, []⟩ : Disk).refusal? folder = some ⟨.nameTooLong, folder⟩ := by
    decide +kernel
  have hrun : (classIndex ⟨.empty, []⟩ folder []).outcome =
      .error (.file ⟨.nameTooLong, folder⟩) := by
    decide +kernel
  refine ⟨fun names content => not_isSource_of_refusal? hrefusal, ?_⟩
  rintro ⟨index, hindex⟩
  cases hrun.symm.trans hindex

end DocGraph
