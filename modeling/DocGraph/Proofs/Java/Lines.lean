import DocGraph.Proofs.Java.Outline
import DocGraph.Proofs.Text.Pieces
import Mathlib.Data.List.TakeWhile

/-!
# Lines of nodes

A reader has no lexemes but parts of the source, each with the number of its line. So a node begins
on the line with its number.
-/

namespace DocGraph.Java

/-- The first line of the lexeme that a node begins with. -/
def Tree.opening (node : Tree) : Text :=
  match node.lexemes with
  | [] => []
  | first :: _ => first.text.takeWhile (· ≠ '\n')

variable {source : Text}

/-- A node begins on the line of the source that its number names. -/
theorem exists_line_of_mem_visits [SourceReader] {visit : Visit}
    (h : visit ∈ (readSource source).root.visits) :
    ∃ above line, visit.node.line = above + 1 ∧
      (Text.pieces (· == '\n') source)[above]? = some line ∧ visit.node.opening <:+: line := by
  have hroot : (readSource source).root.IsFrom (readSource source).root.lexemes := fun _ => id
  have hfrom := Tree.holds_visits (fun _ h _ => h.of_mem_children) hroot visit h
  rw [Tree.line, Tree.opening]
  cases hlexemes : visit.node.lexemes with
  | nil =>
    obtain ⟨line, more, hpieces⟩ := List.exists_cons_of_ne_nil
      (Text.pieces_ne_nil (· == '\n') source)
    exact ⟨0, line, rfl, by simp [hpieces], List.nil_infix⟩
  | cons first rest =>
    have hfirst : first ∈ (readSource source).root.lexemes :=
      hfrom first (by rw [hlexemes]; exact List.mem_cons_self)
    obtain ⟨before, after, hsource, hline⟩ := SourceReader.standsIn hfirst
    obtain ⟨piece, more, hpieces⟩ := List.exists_cons_of_ne_nil
      (Text.pieces_ne_nil (· == '\n') (first.text.dropWhile (· ≠ '\n') ++ after))
    have hopening : Text.pieces (· == '\n') (first.text ++ after) =
        (first.text.takeWhile (· ≠ '\n') ++ piece) :: more := by
      have hcut := Text.pieces_append_of_not (a := first.text.takeWhile (· ≠ '\n')) (fun d hd => by
        simpa using List.mem_takeWhile_imp hd) hpieces
      rwa [← List.append_assoc, List.takeWhile_append_dropWhile] at hcut
    obtain ⟨line, hcount, hinfix⟩ :=
      Text.exists_piece_of_append before hopening (List.prefix_append _ _).isInfix
    refine ⟨Lexeme.lineFeeds before, line, hline.trans (Nat.add_comm _ _), ?_, hinfix⟩
    rw [hsource, List.append_assoc]
    exact hcount

end DocGraph.Java
