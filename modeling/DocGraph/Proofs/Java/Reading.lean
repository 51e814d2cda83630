import DocGraph.Java.Ahead

/-!
# What readers keep

A reader only makes nodes out of tokens and of nodes that it has made before. `Lasting` is said of a
property that passes from tokens to their leaves and from nodes to the node around them. `Keeps` is
said of a reader that gives such pieces and leaves good tokens as it found them, and it is proved of
a compound reader from its parts.
-/

namespace DocGraph.Java

/-- A property of nodes that no step of a reader breaks, where all tokens are good. -/
structure Lasting (good : Token → Prop) (P : Tree → Prop) : Prop where
  token : ∀ kind token, good token → P (.leaf kind none token.lexeme)
  name : ∀ token, good token → token.isWord = true →
    P (.leaf .identifier (some .name) token.lexeme)
  comment : ∀ token, good token → ∀ x ∈ token.comments, P (commentNode x)
  branch : ∀ kind children, (∀ child ∈ children, P child) → P (.branch kind none children)
  role : ∀ role node, role ≠ .name → P node → P (node.withRole role)

/-- A property of a piece: of its node and of the comments before it. -/
def Piece.Has (P : Tree → Prop) (piece : Piece) : Prop :=
  P piece.node ∧ ∀ comment ∈ piece.comments, P comment

/-- A property of all pieces of a list. -/
def Piece.AllHave (P : Tree → Prop) (pieces : List Piece) : Prop := ∀ piece ∈ pieces, piece.Has P

namespace Piece

variable {P : Tree → Prop} {good : Token → Prop} {piece : Piece} {pieces more : List Piece}

@[simp] theorem allHave_nil : AllHave P [] := by simp [AllHave]

@[simp] theorem allHave_cons : AllHave P (piece :: pieces) ↔ piece.Has P ∧ AllHave P pieces := by
  simp [AllHave]

@[simp] theorem allHave_append :
    AllHave P (pieces ++ more) ↔ AllHave P pieces ∧ AllHave P more := by
  simp [AllHave, or_imp, forall_and]

theorem has_ofToken (law : Lasting good P) {token : Token} (h : good token) (kind : NodeKind) :
    (ofToken kind token).Has P := by
  refine ⟨law.token kind token h, ?_⟩
  intro comment hcomment
  obtain ⟨x, hx, rfl⟩ := List.mem_map.1 hcomment
  exact law.comment token h x hx

theorem has_withRole (law : Lasting good P) {role : Role} (hrole : role ≠ .name) (h : piece.Has P) :
    (piece.withRole role).Has P :=
  ⟨law.role role piece.node hrole h.1, h.2⟩

theorem has_nodes (h : AllHave P pieces) : ∀ node ∈ nodes pieces, P node := by
  intro node hnode
  obtain ⟨piece, hpiece, hin⟩ := List.mem_flatMap.1 hnode
  rcases List.mem_append.1 hin with hin | hin
  · exact (h piece hpiece).2 node hin
  · rw [List.mem_singleton.1 hin]
    exact (h piece hpiece).1

theorem has_branch (law : Lasting good P) (kind : NodeKind) (h : AllHave P pieces) :
    (branch kind pieces).Has P := by
  cases pieces with
  | nil => exact ⟨law.branch kind [] (by simp), by simp [branch]⟩
  | cons first rest =>
    rw [allHave_cons] at h
    refine ⟨law.branch kind _ ?_, h.1.2⟩
    intro child hchild
    rcases List.mem_cons.1 hchild with rfl | hchild
    · exact h.1.1
    · exact has_nodes h.2 child hchild

theorem has_branchIfMany (law : Lasting good P) (kind : NodeKind) (h : AllHave P pieces) :
    (branchIfMany kind pieces).Has P := by
  match pieces, h with
  | [], h => exact has_branch law kind h
  | [_], h => exact (allHave_cons.1 h).1
  | _ :: _ :: _, h => exact has_branch law kind h

end Piece

namespace Reader

variable {good : Token → Prop} {P : Tree → Prop} {α β : Type}

/-- Whatever a reader gives satisfies `Q`, and the tokens that it leaves are good, if all tokens
were. -/
def Keeps (good : Token → Prop) (Q : α → Prop) (reader : Reader α) : Prop :=
  ∀ state result after, (∀ token ∈ state.tokens, good token) →
    reader state = some (result, after) → Q result ∧ ∀ token ∈ after.tokens, good token

namespace Keeps

variable {Q : α → Prop} {R : β → Prop}

theorem pure {a : α} (h : Q a) : Keeps good Q (pure a : Reader α) := by
  intro state result after hgood hrun
  cases hrun
  exact ⟨h, hgood⟩

theorem bind {reader : Reader α} {next : α → Reader β} (h : Keeps good Q reader)
    (hnext : ∀ a, Q a → Keeps good R (next a)) : Keeps good R (reader >>= next) := by
  intro state result after hgood hrun
  cases hfirst : reader state with
  | none =>
    simp only [Bind.bind, StateT.bind, hfirst, Option.bind_none] at hrun
    cases hrun
  | some found =>
    obtain ⟨a, between⟩ := found
    simp only [Bind.bind, StateT.bind, hfirst, Option.bind_some] at hrun
    obtain ⟨ha, hbetween⟩ := h state a between hgood hfirst
    exact hnext a ha between result after hbetween hrun

theorem failure : Keeps good Q (failure : Reader α) := by
  intro state result after hgood hrun
  cases hrun

theorem ite {c : Prop} [Decidable c] {first second : Reader α} (hfirst : Keeps good Q first)
    (hsecond : Keeps good Q second) : Keeps good Q (if c then first else second) := by
  by_cases hc : c
  · rwa [if_pos hc]
  · rwa [if_neg hc]

theorem either {first second : Reader α} (hfirst : Keeps good Q first)
    (hsecond : Keeps good Q second) : Keeps good Q (either first second) := by
  intro state result after hgood hrun
  rw [Reader.either] at hrun
  cases hrun' : first state with
  | some found =>
    rw [hrun'] at hrun
    cases hrun
    exact hfirst state result after hgood hrun'
  | none =>
    rw [hrun'] at hrun
    exact hsecond state result after hgood hrun

theorem tokens : Keeps good (fun _ => True) tokens := by
  intro state result after hgood hrun
  cases hrun
  exact ⟨trivial, hgood⟩

theorem ahead (test : List Token → Bool) : Keeps good (fun _ => True) (ahead test) :=
  .bind .tokens fun _ _ => .pure trivial

theorem nextIs (text : Text) : Keeps good (fun _ => True) (nextIs text) := .ahead _

theorem fault : Keeps good (fun _ => True) fault := by
  intro state result after hgood hrun
  cases hrun
  exact ⟨trivial, hgood⟩

theorem take (law : Lasting good P) (kind : NodeKind) : Keeps good (Piece.Has P) (take kind) := by
  intro state result after hgood hrun
  obtain ⟨tokens, faulty⟩ := state
  cases tokens with
  | nil => cases hrun
  | cons token rest =>
    cases hrun
    have hrest : ∀ other ∈ rest, good other := fun other h =>
      hgood other (List.mem_cons_of_mem _ h)
    exact ⟨Piece.has_ofToken law (hgood token List.mem_cons_self) kind, hrest⟩

theorem mark (law : Lasting good P) (text : Text) : Keeps good (Piece.Has P) (mark text) :=
  .bind (.nextIs text) fun _ _ => .ite (.take law .token) .failure

theorem loop {test : List Token → Bool} {reader : Reader (List Piece)}
    (h : Keeps good (Piece.AllHave P) reader) (steps : Nat) :
    Keeps good (Piece.AllHave P) (loop test reader steps) := by
  induction steps with
  | zero => exact .pure Piece.allHave_nil
  | succ steps ih =>
    apply Keeps.bind (.ahead test)
    intro _ _
    apply Keeps.ite _ (.pure Piece.allHave_nil)
    apply Keeps.bind h
    intro pieces hpieces
    apply Keeps.bind ih
    intro more hmore
    exact .pure (Piece.allHave_append.2 ⟨hpieces, hmore⟩)

theorem repeatWhile {test : List Token → Bool} {reader : Reader (List Piece)}
    (h : Keeps good (Piece.AllHave P) reader) :
    Keeps good (Piece.AllHave P) (repeatWhile test reader) :=
  .bind .tokens fun tokens _ => .loop h tokens.length

end Keeps

/-- As `Keeps`, where the tokens to come are known. -/
def KeepsFrom (good : Token → Prop) (tokens : List Token) (Q : α → Prop) (reader : Reader α) :
    Prop :=
  ∀ state result after, state.tokens = tokens → (∀ token ∈ state.tokens, good token) →
    reader state = some (result, after) → Q result ∧ ∀ token ∈ after.tokens, good token

theorem KeepsFrom.of_keeps {Q : α → Prop} {reader : Reader α} {tokens : List Token}
    (h : Keeps good Q reader) : KeepsFrom good tokens Q reader :=
  fun state result after _ hgood hrun => h state result after hgood hrun

/-- The tokens that were looked at are those that the next reader takes. -/
theorem Keeps.bind_tokens {R : β → Prop} {next : List Token → Reader β}
    (h : ∀ tokens, KeepsFrom good tokens R (next tokens)) :
    Keeps good R (Reader.tokens >>= next) := by
  intro state result after hgood hrun
  exact h state.tokens state result after rfl hgood hrun

theorem Keeps.bind_ahead {R : β → Prop} {test : List Token → Bool} {next : Bool → Reader β}
    (h : ∀ tokens, KeepsFrom good tokens R (next (test tokens))) :
    Keeps good R (Reader.ahead test >>= next) := by
  intro state result after hgood hrun
  exact h state.tokens state result after rfl hgood hrun

namespace KeepsFrom

variable {R : β → Prop}

theorem ite {c : Prop} [Decidable c] {ts : List Token} {first second : Reader β}
    (hfirst : c → KeepsFrom good ts R first) (hsecond : KeepsFrom good ts R second) :
    KeepsFrom good ts R (if c then first else second) := by
  by_cases hc : c
  · rw [if_pos hc]
    exact hfirst hc
  · rwa [if_neg hc]

/-- A word may be taken for a name. -/
theorem name (law : Lasting good P) {test : Token → Bool} {ts : List Token}
    {next : Piece → Reader β} (hword : ∀ token, test token = true → token.isWord = true)
    (hstart : Ahead.startsWith test ts = true)
    (hnext : ∀ name : Piece, (name.withRole .name).Has P → Keeps good R (next name)) :
    KeepsFrom good ts R (take .identifier >>= next) := by
  rintro ⟨tokens, faulty⟩ result after rfl hgood hrun
  cases tokens with
  | nil => cases hstart
  | cons token rest =>
    have htoken : good token := hgood token List.mem_cons_self
    have hname : ((Piece.ofToken .identifier token).withRole .name).Has P :=
      ⟨law.name token htoken (hword token hstart), (Piece.has_ofToken law htoken .identifier).2⟩
    exact hnext _ hname ⟨rest, faulty⟩ result after
      (fun other h => hgood other (List.mem_cons_of_mem _ h)) hrun

end KeepsFrom

end Reader

end DocGraph.Java
