import DocGraph.Project.SourceFile
import DocGraph.Proofs.Java.Lines
import DocGraph.Proofs.Text.FileLines

/-!
# Line ends of files

A well-formed file is read with its line ends unified, so its text has the lines of the file and
every declaration the number of the line it begins on. The text of a mended file has its faults
replaced and nothing else: its carriage returns stay, and what stands between two of them is no line
of its own. So a mended file is read like a well-formed one exactly where it holds no carriage
return.
-/

namespace DocGraph

open Java (readSource)

/-- Whether the text of a file has its line ends unified: the file is well-formed, or there is
nothing to unify. -/
def UnifiesEnds (bytes : Bytes) : Prop :=
  (Utf8.decode? bytes).isSome = true ∨ Utf8.carriageReturn ∉ bytes

section

variable [Java.SourceReader]

/-- A text has the lines of a file, and what is declared in it is found on these lines. -/
structure KeepsLines (bytes : Bytes) (text : Text) : Prop where
  lines : Text.pieces (· == '\n') text = (Utf8.byteLines bytes).map Utf8.decodeReplacing
  /-- A byte that ends no line, ill-formed or not, only has a part in the line it is on. -/
  strayByte : ∀ before byte after, bytes = before ++ byte :: after →
    byte ≠ Utf8.lineFeed → byte ≠ Utf8.carriageReturn →
    ∃ above left right below, Utf8.byteLines before = above ++ [left] ∧
      Utf8.byteLines after = right :: below ∧
      Text.pieces (· == '\n') text = above.map Utf8.decodeReplacing ++
        Utf8.decodeReplacing (left ++ byte :: right) :: below.map Utf8.decodeReplacing
  numbers : ∀ visit ∈ (readSource text).root.visits, ∃ above line,
    visit.node.line = above + 1 ∧ (Utf8.byteLines bytes)[above]? = some line ∧
      visit.node.opening <:+: Utf8.decodeReplacing line

variable {disk : Disk} {path : Path} {bytes : Bytes} {t : Text}

theorem keepsLines_unifyLineEnds (bytes : Bytes) :
    KeepsLines bytes (Text.unifyLineEnds (Utf8.decodeReplacing bytes)) where
  lines := Utf8.pieces_unifyLineEnds_decodeReplacing bytes
  strayByte := by
    rintro before byte after rfl hfeed hreturn
    obtain ⟨above, left, right, below, hbefore, hafter, hlines⟩ :=
      Utf8.byteLines_insert hfeed hreturn before after
    refine ⟨above, left, right, below, hbefore, hafter, ?_⟩
    rw [Utf8.pieces_unifyLineEnds_decodeReplacing, hlines, List.map_append, List.map_cons]
  numbers := by
    intro visit hvisit
    obtain ⟨above, line, hnumber, hline, hopening⟩ := Java.exists_line_of_mem_visits hvisit
    rw [Utf8.pieces_unifyLineEnds_decodeReplacing, List.getElem?_map,
      Option.map_eq_some_iff] at hline
    obtain ⟨found, hfound, rfl⟩ := hline
    exact ⟨above, found, hnumber, hfound, hopening⟩

omit [Java.SourceReader] in
theorem ofBytes_of_decode? (h : Utf8.decode? bytes = some t) :
    FileText.ofBytes bytes = ⟨Text.unifyLineEnds t, false⟩ := by
  rw [FileText.ofBytes, h]

omit [Java.SourceReader] in
theorem ofBytes_of_ill_formed (h : Utf8.decode? bytes = none) :
    FileText.ofBytes bytes = ⟨Utf8.decodeReplacing bytes, true⟩ := by
  rw [FileText.ofBytes, h]

omit [Java.SourceReader] in
/-- The text of a file is the one with its faults replaced and its line ends unified exactly where
the file is well-formed or holds no carriage return. -/
theorem text_ofBytes_eq_iff : (FileText.ofBytes bytes).text =
    Text.unifyLineEnds (Utf8.decodeReplacing bytes) ↔ UnifiesEnds bytes := by
  rw [UnifiesEnds]
  cases hdecode : Utf8.decode? bytes with
  | some t =>
    rw [ofBytes_of_decode? hdecode, Utf8.decodeReplacing_of_decode? hdecode]
    simp
  | none =>
    rw [ofBytes_of_ill_formed hdecode, eq_comm, Text.unifyLineEnds_eq_self_iff,
      Utf8.return_mem_decodeReplacing_iff]
    simp

omit [Java.SourceReader] in
theorem fileText_of_read (h : disk.read path = .ok bytes) :
    fileText disk path = ⟨mendedEvents path (FileText.ofBytes bytes).mended,
      .ok (FileText.ofBytes bytes).text⟩ := by
  rw [fileText, Disk.readText, h]
  simp [Except.map, Run.ofFiles, Run.logs, Run.andThen, Run.done]

theorem tree_of_read (h : disk.read path = .ok bytes) :
    (disk.readSourceFile path).map SourceFile.tree =
      .ok (readSource (FileText.ofBytes bytes).text) := by
  rw [Disk.readSourceFile, Disk.readText, h]
  rfl

/-- A readable file always has a text. Where the file is well-formed or holds no carriage return,
and nowhere else, that is its content with its faults replaced and its line ends unified. Then no
fault changes the lines or their numbers: the text has the lines of the file, and it is read with
the same tree from the well-formed file that holds the replacements. -/
theorem fileText_reads_lines (hread : disk.read path = .ok bytes) :
    ∃ text, (fileText disk path).outcome = .ok text ∧
      (text = Text.unifyLineEnds (Utf8.decodeReplacing bytes) ↔ UnifiesEnds bytes) ∧
      (UnifiesEnds bytes → KeepsLines bytes text ∧
        ∀ (other : Disk) (place : Path),
          other.read place = .ok (Utf8.encode (Utf8.decodeReplacing bytes)) →
          fileText other place = Run.done text ∧
            (other.readSourceFile place).map SourceFile.tree =
              (disk.readSourceFile path).map SourceFile.tree) := by
  refine ⟨(FileText.ofBytes bytes).text, by rw [fileText_of_read hread], text_ofBytes_eq_iff, ?_⟩
  intro hends
  have htext := text_ofBytes_eq_iff.2 hends
  refine ⟨by rw [htext]; exact keepsLines_unifyLineEnds bytes, ?_⟩
  intro other place hother
  have hmended := ofBytes_of_decode? (Utf8.decode?_encode (Utf8.decodeReplacing bytes))
  constructor
  · rw [fileText_of_read hother, hmended, htext]
    rfl
  · rw [tree_of_read hother, tree_of_read hread, hmended, htext]

end

/-- A disk with one file of the given content. -/
def oneFile (content : Bytes) : Disk :=
  ⟨FileSystem.empty.put [] "A.java".toList (.file content), []⟩

/-- An ill-formed byte in the first of two lines. -/
theorem fileText_reads_lines_of_stray_byte :
    let bytes := Utf8.encode "/*".toList ++ 0xE9 :: Utf8.encode "*/\nclass A \x7b\x7d".toList
    let file : Path := ⟨.root, ["A.java".toList]⟩
    let text := "/*\uFFFD*/\nclass A \x7b\x7d".toList
    (oneFile bytes).read file = .ok bytes ∧ UnifiesEnds bytes ∧
      (fileText (oneFile bytes) file).outcome = .ok text ∧ KeepsLines bytes text ∧
      (readSource text).root.typeVisits.map (·.node.line) = [2] := by
  intro bytes file text
  have hread : (oneFile bytes).read file = .ok bytes := by rfl
  have hends : UnifiesEnds bytes := .inr (by decide +kernel)
  obtain ⟨found, hfound, hiff, hlines⟩ := fileText_reads_lines hread
  have htext : found = text := (hiff.2 hends).trans (by decide +kernel)
  subst htext
  exact ⟨hread, hends, hfound, (hlines hends).1, by decide +kernel⟩

/-- The same byte in a file whose lines end with carriage returns: the text still holds them, it is
one line, and the class on the third line of the file is numbered as if it were on the first. -/
theorem not_unified_of_stray_byte :
    let bytes := Utf8.encode "/*".toList ++
      0xE9 :: Utf8.encode "*/\r/** @aicontext-graph A */\rclass A \x7b\x7d".toList
    let file : Path := ⟨.root, ["A.java".toList]⟩
    ∃ text, (fileText (oneFile bytes) file).outcome = .ok text ∧
      text ≠ Text.unifyLineEnds (Utf8.decodeReplacing bytes) ∧ ¬ KeepsLines bytes text ∧
      (readSource text).root.typeVisits.map (·.node.line) = [1] ∧
      (readSource (Text.unifyLineEnds (Utf8.decodeReplacing bytes))).root.typeVisits.map
        (·.node.line) = [3] := by
  intro bytes file
  have hread : (oneFile bytes).read file = .ok bytes := by rfl
  refine ⟨(FileText.ofBytes bytes).text, by rw [fileText_of_read hread], by decide +kernel, ?_,
    by decide +kernel, by decide +kernel⟩
  intro hkeeps
  have hlines := hkeeps.lines
  revert hlines
  decide +kernel

end DocGraph
