import DocGraph.Proofs.Graph.Padding
import Mathlib.Data.List.Forall2

/-!
# Margins of comment lines

In a comment a line may be moved by blanks and may have a star in front. `IsMargin` says what can
stand there. A graph that is read with such margins is the one that is read without them: a line of
which nothing else is left separates blocks as an empty line does, and all other lines are the same
once they are undecorated.
-/

namespace DocGraph

open Text (allBlank trim join)

variable {margin line : Text} {plain shown : List Text}

/-- What may stand before a line in a comment: blanks, with one star among them at most. -/
inductive IsMargin : Text → Prop
  | blank {margin : Text} : allBlank margin = true → IsMargin margin
  | star {before after : Text} : allBlank before = true → allBlank after = true →
    IsMargin (before ++ '*' :: after)

theorem IsMargin.notMem (h : IsMargin margin) {c : Char} (hblank : isBlank c = false)
    (hstar : c ≠ '*') : c ∉ margin := by
  cases h with
  | blank hmargin => exact Text.notMem_of_allBlank hmargin hblank
  | star hbefore hafter =>
    rw [List.mem_append, List.mem_cons, not_or, not_or]
    exact ⟨Text.notMem_of_allBlank hbefore hblank, hstar, Text.notMem_of_allBlank hafter hblank⟩

/-- A line behind a star is left with its blanks taken off. -/
theorem undecorate_star {before after : Text} (hbefore : allBlank before = true)
    (hafter : allBlank after = true) (line : Text) :
    undecorate (before ++ '*' :: after ++ line) = trim line := by
  have htrim : trim (before ++ '*' :: after ++ line) = trim ('*' :: (after ++ line)) := by
    rw [List.append_assoc, Text.trim_append_of_allBlank hbefore]
    rfl
  rw [undecorate_congr htrim, undecorate_star_cons, Text.trim_append_of_allBlank hafter]

/-- Undecorating takes off the margin of a line that has no star of its own in front. -/
theorem IsMargin.undecorate_append (h : IsMargin margin) (hline : (trim line).head? ≠ some '*') :
    undecorate (margin ++ line) = undecorate line := by
  cases h with
  | blank hblank => exact undecorate_congr (Text.trim_append_of_allBlank hblank)
  | star hbefore hafter => rw [undecorate_star hbefore hafter, undecorate_of_not_star hline]

/-- Lines as they are shown, each behind a margin within its line. -/
def ShownAs (plain shown : List Text) : Prop :=
  List.Forall₂ (fun line decorated => ∃ margin, IsMargin margin ∧
    (∀ c ∈ margin, isLineEnd c = false) ∧ decorated = margin ++ line) plain shown

namespace ShownAs

theorem map_undecorate (h : ShownAs plain shown)
    (hstarless : ∀ line ∈ plain, (trim line).head? ≠ some '*') :
    shown.map undecorate = plain.map undecorate := by
  induction h with
  | nil => rfl
  | cons hfirst _ ih =>
    obtain ⟨margin, hmargin, -, rfl⟩ := hfirst
    rw [List.map_cons, List.map_cons, hmargin.undecorate_append (hstarless _ List.mem_cons_self),
      ih fun line hline => hstarless line (List.mem_cons_of_mem _ hline)]

theorem unbroken (h : ShownAs plain shown)
    (hunbroken : ∀ line ∈ plain, ∀ c ∈ line, isLineEnd c = false) :
    ∀ line ∈ shown, ∀ c ∈ line, isLineEnd c = false := by
  induction h with
  | nil => exact hunbroken
  | @cons line decorated plain shown hfirst _ ih =>
    obtain ⟨margin, -, hmargin, rfl⟩ := hfirst
    rw [List.forall_mem_cons] at hunbroken ⊢
    refine ⟨fun c hc => ?_, ih hunbroken.2⟩
    rcases List.mem_append.1 hc with hc | hc
    · exact hmargin c hc
    · exact hunbroken.1 c hc

end ShownAs

/-- A graph that is shown in a comment is read as it is read without the margins of its lines, as a
single block, as several and for every class that it documents. -/
theorem readGraph_shown {plain shown : List Text} (h : ShownAs plain shown)
    (hunbroken : ∀ line ∈ plain, ∀ c ∈ line, isLineEnd c = false)
    (hstarless : ∀ line ∈ plain, (trim line).head? ≠ some '*') :
    readBlock (join ['\n'] shown) = readBlock (join ['\n'] plain) ∧
      readGraph (join ['\n'] shown) = readGraph (join ['\n'] plain) ∧
      ∀ name,
        documentedUses (join ['\n'] shown) name = documentedUses (join ['\n'] plain) name := by
  have hlines := h.map_undecorate hstarless
  have hblock : readBlock (join ['\n'] shown) = readBlock (join ['\n'] plain) := by
    rw [readBlock_join (h.unbroken hunbroken), readBlock_join hunbroken, hlines]
  have hblocks : blocks (join ['\n'] shown) = blocks (join ['\n'] plain) := by
    rw [blocks_join (h.unbroken hunbroken), blocks_join hunbroken, hlines]
  have hgraph : readGraph (join ['\n'] shown) = readGraph (join ['\n'] plain) := by
    rw [readGraph, readGraph, hblocks]
  exact ⟨hblock, hgraph, fun name => by rw [documentedUses, documentedUses, hgraph]⟩

/-- Two blocks of which one line has no star and the line between them nothing else. -/
theorem readGraph_shown_of_two_blocks :
    let edge : Edge := ⟨usesRelation, .outbound, [['A']]⟩
    let plain : List Text := [['F'], [], "  ├─[uses]→ A".toList, ['B']]
    let shown : List Text :=
      [" * F".toList, "\t*".toList, "\u00a0  ├─[uses]→ A".toList, "*B".toList]
    ShownAs plain shown ∧ (∀ line ∈ plain, ∀ c ∈ line, isLineEnd c = false) ∧
      (∀ line ∈ plain, (trim line).head? ≠ some '*') ∧
      readBlock (join ['\n'] shown) = ⟨['F'], [edge]⟩ ∧
      readGraph (join ['\n'] shown) = [⟨['F'], []⟩, ⟨['B'], [edge]⟩] ∧
      documentedUses (join ['\n'] shown) ['B'] = [['A']] := by
  intro edge plain shown
  have hstarred : IsMargin " * ".toList := @IsMargin.star [' '] [' '] (by decide) (by decide)
  have hbare : IsMargin "\t*".toList := @IsMargin.star ['\t'] [] (by decide) (by decide)
  have htight : IsMargin ['*'] := @IsMargin.star [] [] (by decide) (by decide)
  have hshown : ShownAs plain shown :=
    .cons ⟨_, hstarred, Text.forall_mem_of_all (by decide), rfl⟩ <|
      .cons ⟨_, hbare, Text.forall_mem_of_all (by decide), rfl⟩ <|
      .cons ⟨['\u00a0'], .blank (by decide), Text.forall_mem_of_all (by decide), rfl⟩ <|
      .cons ⟨_, htight, Text.forall_mem_of_all (by decide), rfl⟩ .nil
  have hall : plain.all (·.all (!isLineEnd ·)) = true := by decide +kernel
  have hunbroken : ∀ line ∈ plain, ∀ c ∈ line, isLineEnd c = false :=
    fun line hline => Text.forall_mem_of_all (List.all_eq_true.1 hall line hline)
  have hstarless : ∀ line ∈ plain, (trim line).head? ≠ some '*' := by decide +kernel
  obtain ⟨hblock, hgraph, huses⟩ := readGraph_shown hshown hunbroken hstarless
  refine ⟨hshown, hunbroken, hstarless, ?_, ?_, ?_⟩
  · rw [hblock]
    decide +kernel
  · rw [hgraph]
    decide +kernel
  · rw [huses]
    decide +kernel

end DocGraph
