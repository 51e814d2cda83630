import DocGraph.Files.FileSystem
import DocGraph.Proofs.Text.Occurrence
import DocGraph.Proofs.Text.Pieces
import Mathlib.Data.List.Flatten

/-!
# Paths as they are written

The text of a path reads back as that path if its names could stand between slashes. This holds of
every path that was read, and of the routes of a file system.

A path is no longer than one that has all of its names.
-/

namespace DocGraph

namespace Path

/-- Whether a name can stand between the slashes of a written path. -/
def isWrittenName (name : Text) : Bool := keepsName name && name.all (· != '/')

/-- A path whose names can all be written. -/
def IsWritten (path : Path) : Prop := ∀ name ∈ path.names, isWrittenName name = true

theorem isWrittenName_of_isFileName {name : Text} (h : isFileName name = true) :
    isWrittenName name = true := by
  simp only [isFileName, Bool.and_eq_true, List.all_eq_true] at h
  simp only [isWrittenName, keepsName, Bool.and_eq_true, List.all_eq_true]
  exact ⟨h.1.1.1, fun c hc => (h.1.2 c hc).1⟩

theorem isWritten_ofText (t : Text) : (ofText t).IsWritten := by
  intro name hname
  obtain ⟨hpiece, hkeeps⟩ := List.mem_filter.1 hname
  simp only [isWrittenName, hkeeps, Bool.true_and, List.all_eq_true]
  intro c hc
  simpa using Text.not_separator_of_mem_pieces hpiece c hc

private theorem no_slash {name : Text} (h : isWrittenName name = true) :
    ∀ c ∈ name, (c == '/') = false := by
  simp only [isWrittenName, Bool.and_eq_true, List.all_eq_true] at h
  intro c hc
  simpa using h.2 c hc

/-- The names of a written path are read back from between its slashes. -/
theorem namesOf_join {names : List Text} (h : ∀ name ∈ names, isWrittenName name = true) :
    namesOf (Text.join ['/'] names) = names := by
  have hkeeps : ∀ name ∈ names, keepsName name = true := by
    intro name hname
    have := h name hname
    simp only [isWrittenName, Bool.and_eq_true] at this
    exact this.1
  by_cases hne : names = []
  · subst hne
    rfl
  · rw [namesOf, Text.pieces_join hne fun name hname => no_slash (h name hname),
      List.filter_eq_self]
    exact hkeeps

private theorem namesOf_slash (t : Text) : namesOf ('/' :: t) = namesOf t := by
  rw [namesOf, Text.pieces_cons_of_separator rfl]
  rfl

/-- A written name has a first character, and it is no slash. -/
private theorem exists_head {name : Text} (h : isWrittenName name = true) :
    ∃ c rest, name = c :: rest ∧ c ≠ '/' := by
  cases name with
  | nil => simp [isWrittenName, keepsName] at h
  | cons c rest => exact ⟨c, rest, rfl, by simpa using no_slash h c List.mem_cons_self⟩

private theorem join_cons (name : Text) (rest : List Text) :
    ∃ behind, Text.join ['/'] (name :: rest) = name ++ behind := by
  cases rest with
  | nil => exact ⟨[], by simp [Text.join]⟩
  | cons next rest => exact ⟨'/' :: Text.join ['/'] (next :: rest), by simp [Text.join]⟩

/-- The anchor of a path is told from the slashes before its first name. -/
private theorem anchor_ofText (anchor : Anchor) {c : Char} (hc : c ≠ '/') (t : Text) :
    Anchor.ofText (anchor.text ++ c :: t) = anchor := by
  cases anchor with
  | here => simp [Anchor.text, Anchor.ofText, hc]
  | root => simp [Anchor.text, Anchor.ofText, hc]
  | doubleRoot => simp [Anchor.text, Anchor.ofText, hc]

private theorem namesOf_anchor (anchor : Anchor) (t : Text) :
    namesOf (anchor.text ++ t) = namesOf t := by
  cases anchor with
  | here => rfl
  | root => exact namesOf_slash t
  | doubleRoot => exact (namesOf_slash _).trans (namesOf_slash t)

/-- A written path reads back from its text. -/
theorem ofText_text {path : Path} (h : path.IsWritten) : ofText path.text = path := by
  obtain ⟨anchor, names⟩ := path
  have hnames : namesOf (Text.join ['/'] names) = names := namesOf_join h
  cases names with
  | nil => cases anchor <;> rfl
  | cons name rest =>
    obtain ⟨c, tail, rfl, hc⟩ := exists_head (h name List.mem_cons_self)
    obtain ⟨behind, hbehind⟩ := join_cons (c :: tail) rest
    have hposix : posix ⟨anchor, (c :: tail) :: rest⟩ = anchor.text ++ c :: (tail ++ behind) := by
      rw [posix, hbehind, List.cons_append]
    have htext : text ⟨anchor, (c :: tail) :: rest⟩ = anchor.text ++ c :: (tail ++ behind) := by
      rw [text, hposix]
      cases anchor <;> rfl
    rw [hbehind, List.cons_append] at hnames
    rw [htext, ofText, anchor_ofText anchor hc, namesOf_anchor, hnames]

/-! ## How long a path is -/

theorem size_le_of_sublist {few many : Text} (h : few.Sublist many) :
    Utf8.size few ≤ Utf8.size many :=
  (h.flatMap String.utf8EncodeChar).length_le

/-- A dot stands for a path without a text of its own. -/
theorem size_text (path : Path) : Utf8.size path.text = max 1 (Utf8.size path.posix) := by
  rw [text]
  cases hposix : path.posix with
  | nil => rfl
  | cons c rest =>
    have hchar : 0 < (String.utf8EncodeChar c).length := by
      rw [String.length_utf8EncodeChar]
      exact Char.utf8Size_pos c
    have hsize : 0 < Utf8.size (c :: rest) := by
      rw [Utf8.size, Utf8.encode, List.flatMap_cons, List.length_append]
      omega
    rw [List.isEmpty_cons, if_neg Bool.false_ne_true]
    omega

theorem size_text_le {path other : Path}
    (hanchor : path.anchor = .here ∨ path.anchor = other.anchor)
    (hnames : path.names.Sublist other.names) :
    Utf8.size path.text ≤ Utf8.size other.text := by
  have hposix : path.posix.Sublist other.posix := by
    refine List.Sublist.append ?_ (Text.join_sublist _ hnames)
    rcases hanchor with hhere | hsame
    · rw [hhere]
      exact List.nil_sublist _
    · rw [hsame]
  rw [size_text, size_text]
  have hsize := size_le_of_sublist hposix
  omega

end Path

end DocGraph
