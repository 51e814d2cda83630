import DocGraph.Config.Load
import DocGraph.Proofs.Files.Lookup

/-!
# Settings that cannot be loaded

Every load that fails does so on account of the file, and its content tells how. A file that cannot
be read, one that is not in the format and one that holds something other than a mapping are named
in a message about the configuration. There is no such message for bytes that are not text, for
numbers that are out of range while tokens are read, and for scalars that say what their kind cannot
mean: these faults come through as they are.
-/

namespace DocGraph

open Yaml (Format Value)

/-- A file holds a text, whatever its line ends are. -/
def Disk.HasText (disk : Disk) (file : Path) (t : Text) : Prop :=
  ∃ bytes written, disk.read file = .ok bytes ∧ Utf8.decode? bytes = some written ∧
    Text.unifyLineEnds written = t

/-- The ways in which a file makes a load fail, with the fault that each of them ends in. -/
inductive LoadFailure [Format] (disk : Disk) (file : Path) : Fault → Prop
  | unread {error : FileError} : disk.read file = .error error →
      LoadFailure disk file (.badConfiguration (loadMessage file error.message))
  | malformed {t : Text} : disk.HasText file t → Format.value t = .error .malformed →
      LoadFailure disk file (.badConfiguration (loadMessage file (Format.problem file.text t)))
  | notMapping {t : Text} {value : Value} : disk.HasText file t → Format.value t = .ok value →
      value.isMapping = false → value.isTrue = true →
      LoadFailure disk file
        (.badConfiguration (Text.phrase ["Configuration in ", file.text, " must be a mapping"]))
  | undecodable {bytes : Bytes} : disk.read file = .ok bytes → Utf8.decode? bytes = none →
      LoadFailure disk file .undecodableConfiguration
  | numberOutOfRange {t : Text} : disk.HasText file t →
      Format.root? t = .error .valueOutOfRange → LoadFailure disk file (.badScalar .valueOutOfRange)
  | unreadableScalar {t : Text} {root inner : Yaml.Node} {fault : Yaml.Fault} :
      disk.HasText file t → Format.root? t = .ok (some root) → root.Within inner →
      inner.Unreadable fault → LoadFailure disk file (.badScalar fault)

variable {disk : Disk} {environment : Environment} {path : Path} {file : Option Path}
variable {fault : Fault}

/-! ## Files that can be looked up -/

theorem exists_holds (h : disk.refusal? path = none) : ∃ found, disk.holds path = .ok found := by
  rw [Disk.holds, Disk.find?, h]
  cases disk.spot path <;> exact ⟨_, rfl⟩

theorem refusal?_of_holds {found : Bool} (h : disk.holds path = .ok found) :
    disk.refusal? path = none := by
  rw [Disk.holds, Disk.find?] at h
  cases hrefusal : disk.refusal? path with
  | none => rfl
  | some error =>
    rw [hrefusal] at h
    cases h

/-! ## Files that are chosen -/

theorem holds_of_firstFile {candidates : List Path}
    (h : (firstFile disk candidates).outcome = .ok (some path)) : disk.holds path = .ok true := by
  induction candidates with
  | nil => cases h
  | cons candidate rest ih =>
    cases hholds : disk.holds candidate with
    | error e => simp [firstFile, hholds, Run.ofFiles] at h
    | ok found =>
      cases found with
      | true =>
        have hpath : candidate = path := by
          simpa [firstFile, hholds, Run.ofFiles] using h
        rwa [← hpath]
      | false => exact ih (by simpa [firstFile, hholds, Run.ofFiles] using h)

/-- A file that was chosen can be looked up, whether it is there or not. -/
theorem refusal?_of_chooseFile {asked : Option Text} {root : Option Path}
    (h : (chooseFile disk environment asked root).outcome = .ok (some path)) :
    disk.refusal? path = none := by
  unfold chooseFile at h
  dsimp only at h
  split at h
  · obtain ⟨home, -, h⟩ := Run.outcome_andThen_eq_ok_iff.1 h
    exact refusal?_of_holds (holds_of_firstFile h)
  · obtain ⟨named, -, h⟩ := Run.outcome_andThen_eq_ok_iff.1 h
    cases hholds : disk.holds (named.resolve disk.cwd) with
    | error e => simp [hholds, Run.ofFiles] at h
    | ok found =>
      have hpath : named.resolve disk.cwd = path := by
        cases found <;> simpa [hholds, Run.ofFiles, Run.outcome_andThen, Except.bind] using h
      exact hpath ▸ refusal?_of_holds hholds

/-! ## Loads that fail -/

/-- Whether an outcome is a given fault can be computed, though settings cannot be compared. -/
theorem eq_error_of_isFault {α : Type} {outcome : Except Fault α}
    (h : (match outcome with
      | .error found => found == fault
      | .ok _ => false) = true) : outcome = .error fault := by
  cases outcome with
  | error found => simpa using h
  | ok a => cases h

variable [Format]

theorem readValue_fault (h : (readValue disk path).outcome = .error fault) :
    LoadFailure disk path fault := by
  unfold readValue at h
  split at h
  next error hread =>
    cases h
    exact .unread hread
  next bytes hread =>
    split at h
    next hbytes =>
      cases h
      exact .undecodable hread hbytes
    next written hbytes =>
      have htext : disk.HasText path (Text.unifyLineEnds written) :=
        ⟨bytes, written, hread, hbytes, rfl⟩
      split at h
      · cases h
      next hload =>
        cases h
        exact .malformed htext hload
      next scalarFault hform hload =>
        cases h
        rcases Format.faults hload hform with ⟨hroot, rfl⟩ | ⟨_, _, hroot, hin, hbad⟩
        · exact .numberOutOfRange htext hroot
        · exact .unreadableScalar htext hroot hin hbad

theorem exists_text_of_readValue {value : Value} (h : (readValue disk path).outcome = .ok value) :
    ∃ t, disk.HasText path t ∧ Format.value t = .ok value := by
  unfold readValue at h
  split at h
  · cases h
  next bytes hread =>
    split at h
    · cases h
    next written hbytes =>
      split at h
      next hload =>
        cases h
        exact ⟨_, ⟨bytes, written, hread, hbytes, rfl⟩, hload⟩
      · cases h
      · cases h

theorem readLayer_fault (h : (readLayer disk path).outcome = .error fault) :
    LoadFailure disk path fault := by
  rcases Run.outcome_andThen_eq_error_iff.1 h with hread | ⟨value, hread, h⟩
  · exact readValue_fault hread
  · obtain ⟨t, htext, hload⟩ := exists_text_of_readValue hread
    split at h
    · cases h
    next hmapping =>
      split at h
      next htrue =>
        cases h
        refine .notMapping htext hload ?_ htrue
        cases value with
        | mapping number entries => exact absurd rfl (hmapping number entries)
        | _ => rfl
      · cases h

theorem loadFile_fault (hlookup : disk.refusal? path = none)
    (h : (loadFile disk (some path)).outcome = .error fault) : LoadFailure disk path fault := by
  obtain ⟨found, hholds⟩ := exists_holds hlookup
  simp only [loadFile, hholds, Run.ofFiles, Run.bind_eq, Run.done_andThen] at h
  cases found with
  | false => cases h
  | true =>
    rcases Run.outcome_andThen_eq_error_iff.1 h with hlayer | ⟨layer, -, h⟩
    · exact readLayer_fault hlayer
    · cases h

/-- A load fails on account of the file alone. -/
theorem loadSettings_fault (hlookup : ∀ path ∈ file, disk.refusal? path = none)
    (h : (loadSettings disk environment file).outcome = .error fault) :
    ∃ path ∈ file, LoadFailure disk path fault := by
  rcases Run.outcome_andThen_eq_error_iff.1 h with hfile | ⟨settings, -, h⟩
  · cases file with
    | none => cases hfile
    | some path => exact ⟨path, rfl, loadFile_fault (hlookup path rfl) hfile⟩
  · cases h

end DocGraph
