import DocGraph.Java.Grammar
import DocGraph.Proofs.Java.Reading

/-!
# What holds of every node that is read

A lasting property holds of every node of a tree that was read. There is one lemma for each reader
of the grammar, and its proof follows the reader step by step; `holds_outline` puts them
together.
-/

namespace DocGraph.Java

namespace Grammar

open Reader

/-- The readers for inner parts give pieces with a lasting property. -/
def Trusts (good : Token → Prop) (P : Tree → Prop) (inner : Readers) : Prop :=
  ∀ part, Keeps good (Piece.AllHave P) (inner part)

variable {good : Token → Prop} {P : Tree → Prop} {inner : Readers}

theorem keeps_one (hinner : Trusts good P inner) (part : Part) :
    Keeps good (Piece.Has P) (one inner part) := by
  refine .bind (hinner part) fun pieces hpieces => ?_
  match pieces, hpieces with
  | [], _ => exact .failure
  | [piece], hpieces => exact .pure (Piece.allHave_cons.1 hpieces).1
  | _ :: _ :: _, _ => exact .failure

theorem keeps_annotations (hinner : Trusts good P inner) :
    Keeps good (Piece.AllHave P) (annotations inner) :=
  .repeatWhile (hinner .annotationUse)

theorem keeps_itemsUntil (hinner : Trusts good P inner) (stop : List Token → Bool) :
    Keeps good (Piece.AllHave P) (itemsUntil inner stop) :=
  .repeatWhile (hinner .item)

/-- One piece as a list of pieces. -/
theorem keeps_single {reader : Reader Piece} (h : Keeps good (Piece.Has P) reader) :
    Keeps good (Piece.AllHave P) (do
      let piece ← reader
      pure [piece]) := by
  refine .bind h fun piece hpiece => ?_
  exact .pure (by simp [hpiece])

/-- A row of pieces as one node, unless there are none. -/
theorem allHave_ifAny (law : Lasting good P) (kind : NodeKind) {pieces : List Piece}
    (h : Piece.AllHave P pieces) :
    Piece.AllHave P (if pieces.isEmpty then [] else [Piece.branch kind pieces]) := by
  split
  · exact Piece.allHave_nil
  · simp [Piece.has_branch law kind h]

section Parts

variable (law : Lasting good P) (hinner : Trusts good P inner)

include law hinner

theorem keeps_bracketed (kind : NodeKind) (opening closing : Text) :
    Keeps good (Piece.Has P) (bracketed inner kind opening closing) := by
  refine .bind (.mark law opening) fun first hfirst => ?_
  refine .bind (keeps_itemsUntil hinner _) fun items hitems => ?_
  refine .bind (.mark law closing) fun last hlast => ?_
  exact .pure (Piece.has_branch law kind (by simp [hfirst, hitems, hlast]))

theorem keeps_headerUntil (stop : List Token → Bool) :
    Keeps good (Piece.AllHave P) (headerUntil inner stop) := by
  refine .bind (.repeatWhile ?_) fun pieces hpieces => .pure (allHave_ifAny law .header hpieces)
  refine .bind (.ahead _) fun _ _ => ?_
  exact .ite (hinner .annotationUse) (keeps_single (.take law .token))

omit hinner in
theorem keeps_nameWords (steps : Nat) : Keeps good (Piece.AllHave P) (nameWords steps) := by
  induction steps with
  | zero => exact .failure
  | succ steps ih =>
    refine .bind .tokens fun tokens _ => .ite ?_ .failure
    refine .bind (.take law .identifier) fun word hword => .ite ?_ (.pure (by simp [hword]))
    refine .bind (.mark law ".") fun dot hdot => ?_
    refine .bind ih fun rest hrest => ?_
    exact .pure (by simp [hword, hdot, hrest])

omit hinner in
theorem keeps_qualifiedName : Keeps good (Piece.Has P) qualifiedName := by
  refine .bind .tokens fun tokens _ => ?_
  refine .bind (keeps_nameWords law tokens.length) fun words hwords => ?_
  exact .pure (Piece.has_branchIfMany law .scopedIdentifier hwords)

theorem keeps_annotationUse : Keeps good (Piece.Has P) (annotationUse inner) := by
  refine .bind (.mark law "@") fun at_ hat => ?_
  refine .bind (keeps_qualifiedName law) fun name hname => ?_
  refine .bind (.nextIs "(") fun _ _ => .ite ?_ ?_
  · refine .bind (keeps_bracketed law hinner .parenthesized "(" ")") fun arguments harguments => ?_
    exact .pure (Piece.has_branch law .annotationUse (by simp [hat, hname, harguments]))
  · exact .pure (Piece.has_branch law .annotationUse (by simp [hat, hname]))

theorem keeps_modifiers : Keeps good (Piece.AllHave P) (modifiers inner) := by
  refine .bind (.repeatWhile ?_) fun pieces hpieces => .pure (allHave_ifAny law .modifiers hpieces)
  refine .bind (.ahead _) fun _ _ => ?_
  exact .ite (hinner .annotationUse) (keeps_single (.take law .token))

/-! ## Types -/

theorem keeps_typeSuffix (steps : Nat) {type : Piece} (htype : type.Has P) :
    Keeps good (Piece.Has P) (typeSuffix inner steps type) := by
  induction steps generalizing type with
  | zero => exact .pure htype
  | succ steps ih =>
    refine .bind .tokens fun tokens _ => .ite ?_ (.ite ?_ (.pure htype))
    · refine .bind (keeps_one hinner .typeArguments) fun arguments harguments => ?_
      exact ih (Piece.has_branch law .genericType (by simp [htype, harguments]))
    · refine .bind (.mark law ".") fun dot hdot => ?_
      refine .bind (keeps_annotations hinner) fun marks hmarks => ?_
      refine .bind (.take law .typeIdentifier) fun name hname => ?_
      exact ih (Piece.has_branch law .scopedType (by simp [htype, hdot, hmarks, hname]))

theorem keeps_simpleType : Keeps good (Piece.Has P) (simpleType inner) := by
  refine .bind .tokens fun tokens _ => .ite (.take law .primitiveType) (.ite ?_ .failure)
  refine .bind (.take law .typeIdentifier) fun name hname => ?_
  exact keeps_typeSuffix law hinner tokens.length hname

theorem keeps_dimensions : Keeps good (Piece.AllHave P) (dimensions inner) := by
  refine .bind (.repeatWhile ?_) fun pieces hpieces => .pure (allHave_ifAny law .dimensions hpieces)
  refine .bind (keeps_annotations hinner) fun marks hmarks => ?_
  refine .bind (.mark law "[") fun opening hopening => ?_
  refine .bind (.mark law "]") fun closing hclosing => ?_
  exact .pure (by simp [hmarks, hopening, hclosing])

theorem keeps_plainType : Keeps good (Piece.Has P) (plainType inner) := by
  refine .bind (keeps_one hinner .simpleType) fun element helement => ?_
  refine .bind (keeps_dimensions law hinner) fun brackets hbrackets => ?_
  have hrole : (element.withRole .element).Has P := Piece.has_withRole law (by simp) helement
  cases brackets with
  | nil => exact .pure helement
  | cons first rest =>
    rw [Piece.allHave_cons] at hbrackets
    exact .pure (Piece.has_branch law .arrayType (by simp [hrole, hbrackets]))

theorem keeps_type : Keeps good (Piece.Has P) (type inner) := by
  refine .bind (keeps_annotations hinner) fun marks hmarks => ?_
  refine .bind (keeps_one hinner .plainType) fun plain hplain => .pure ?_
  split
  · exact hplain
  · exact Piece.has_branch law .annotatedType (by simp [hmarks, hplain])

theorem keeps_wildcard {marks : List Piece} (hmarks : Piece.AllHave P marks) :
    Keeps good (Piece.Has P) (wildcard inner marks) := by
  refine .bind (.mark law "?") fun question hquestion => ?_
  refine .bind .tokens fun tokens _ => .ite ?_ ?_
  · refine .bind (.take law .token) fun word hword => ?_
    refine .bind (keeps_one hinner .type) fun bound hbound => ?_
    exact .pure (Piece.has_branch law .wildcard (by simp [hmarks, hquestion, hword, hbound]))
  · exact .pure (Piece.has_branch law .wildcard (by simp [hmarks, hquestion]))

theorem keeps_typeArgument : Keeps good (Piece.Has P) (typeArgument inner) := by
  refine .bind (.nextIs ",") fun _ _ => .ite (.take law .token) ?_
  refine .bind (.ahead _) fun _ _ => .ite ?_ (keeps_one hinner .type)
  exact .bind (keeps_annotations hinner) fun marks hmarks => keeps_wildcard law hinner hmarks

theorem keeps_typeArguments : Keeps good (Piece.Has P) (typeArguments inner) := by
  refine .bind (.mark law "<") fun opening hopening => ?_
  refine .bind (.repeatWhile (keeps_single (keeps_typeArgument law hinner)))
    fun arguments harguments => ?_
  refine .bind (.mark law ">") fun closing hclosing => ?_
  exact .pure (Piece.has_branch law .typeArguments (by simp [hopening, harguments, hclosing]))

theorem keeps_untilAngle (steps depth : Nat) :
    Keeps good (Piece.AllHave P) (untilAngle inner steps depth) := by
  induction steps generalizing depth with
  | zero => exact .failure
  | succ steps ih =>
    refine .bind .tokens fun tokens _ => ?_
    extract_lets deeper next
    have hnext : ∀ pieces, Piece.AllHave P pieces → Keeps good (Piece.AllHave P) (next pieces) := by
      intro pieces hpieces
      refine .ite (.pure hpieces) ?_
      refine .bind (ih _) fun rest hrest => ?_
      exact .pure (by simp [hpieces, hrest])
    refine .ite (.bind (hinner .annotationUse) hnext) ?_
    refine .bind (.take law .token) fun piece hpiece => ?_
    exact .bind (.pure (by simp [hpiece])) hnext

theorem keeps_typeParameters : Keeps good (Piece.AllHave P) (typeParameters inner) := by
  refine .bind .tokens fun tokens _ => .ite ?_ (.pure Piece.allHave_nil)
  refine .bind (.mark law "<") fun opening hopening => ?_
  refine .bind (keeps_untilAngle law hinner tokens.length 0) fun rest hrest => .pure ?_
  have hnode := Piece.has_branch law .typeParameters (Piece.allHave_cons.2 ⟨hopening, hrest⟩)
  simp [hnode]

/-! ## Expressions -/

theorem keeps_creation : Keeps good (Piece.AllHave P) (creation inner) := by
  refine .bind (.mark law "new") fun word hword => ?_
  refine .bind (keeps_annotations hinner) fun marks hmarks => ?_
  refine .bind (.nextIs "<") fun _ _ => ?_
  extract_lets next
  have hnext : ∀ arguments, Piece.AllHave P arguments →
      Keeps good (Piece.AllHave P) (next arguments) := by
    intro arguments harguments
    refine .bind (keeps_annotations hinner) fun more hmore => ?_
    refine .bind (keeps_one hinner .simpleType) fun created hcreated => ?_
    have hstart : Piece.AllHave P (word :: marks ++ arguments ++ more ++ [created]) := by
      simp [hword, hmarks, harguments, hmore, hcreated]
    refine .bind (.nextIs "(") fun _ _ => .ite ?_ (.pure hstart)
    refine .bind (keeps_bracketed law hinner .parenthesized "(" ")") fun values hvalues => ?_
    refine .bind (.nextIs "\x7b") fun _ _ => .ite ?_ (.pure ?_)
    · refine .bind (keeps_one hinner (.body .ofClass)) fun body hbody => .pure ?_
      exact Piece.allHave_append.2 ⟨hstart, by simp [hvalues, hbody]⟩
    · exact Piece.allHave_append.2 ⟨hstart, by simp [hvalues]⟩
  exact .ite (.bind (hinner .typeArguments) hnext) (.bind (.pure Piece.allHave_nil) hnext)

omit law in
theorem keeps_labelItems (steps questions : Nat) (inTypes : Bool) :
    Keeps good (Piece.AllHave P) (labelItems inner steps questions inTypes) := by
  induction steps generalizing questions inTypes with
  | zero => exact .failure
  | succ steps ih =>
    refine .bind .tokens fun tokens _ => .ite (.pure Piece.allHave_nil) ?_
    refine .bind (hinner .item) fun pieces hpieces => ?_
    refine .bind (ih _ _) fun rest hrest => ?_
    exact .pure (by simp [hpieces, hrest])

theorem keeps_label : Keeps good (Piece.Has P) (label inner) := by
  refine .bind .tokens fun tokens _ => ?_
  refine .bind (.take law .token) fun word hword => ?_
  refine .bind (keeps_labelItems hinner tokens.length 0 false) fun items hitems => ?_
  exact .pure (Piece.has_branch law .switchLabel (by simp [hword, hitems]))

theorem keeps_labelAndColon : Keeps good (Piece.AllHave P) (labelAndColon inner) := by
  refine .bind (keeps_label law hinner) fun label hlabel => ?_
  refine .bind (.mark law ":") fun colon hcolon => ?_
  exact .pure (by simp [hlabel, hcolon])

theorem keeps_itemsAndSemicolon : Keeps good (Piece.AllHave P) (itemsAndSemicolon inner) := by
  refine .bind (keeps_itemsUntil hinner _) fun items hitems => ?_
  refine .bind (.mark law ";") fun last hlast => ?_
  exact .pure (by simp [hitems, hlast])

theorem keeps_switchCase : Keeps good (Piece.Has P) (switchCase inner) := by
  refine .bind (keeps_label law hinner) fun first hfirst => ?_
  refine .bind (.nextIs "->") fun _ _ => .ite ?_ ?_
  · refine .bind (.mark law "->") fun arrow harrow => ?_
    refine .bind (.nextIs "\x7b") fun _ _ => ?_
    extract_lets next
    have hnext : ∀ result, Piece.AllHave P result → Keeps good (Piece.Has P) (next result) :=
      fun result hresult =>
        .pure (Piece.has_branch law .switchRule (by simp [hfirst, harrow, hresult]))
    exact .ite (.bind (hinner .block) hnext) (.bind (keeps_itemsAndSemicolon law hinner) hnext)
  · refine .bind (.mark law ":") fun colon hcolon => ?_
    refine .bind (.repeatWhile (keeps_labelAndColon law hinner)) fun labels hlabels => ?_
    refine .bind (.repeatWhile (hinner .statement)) fun statements hstatements => ?_
    exact .pure (Piece.has_branch law .switchGroup (by simp [hfirst, hcolon, hlabels, hstatements]))

theorem keeps_switch : Keeps good (Piece.AllHave P) (switch inner) := by
  refine .bind (.mark law "switch") fun word hword => ?_
  refine .bind (keeps_bracketed law hinner .parenthesized "(" ")") fun selector hselector => ?_
  refine .bind (.mark law "\x7b") fun opening hopening => ?_
  refine .bind (.repeatWhile (keeps_single (keeps_switchCase law hinner))) fun cases hcases => ?_
  refine .bind (.mark law "\x7d") fun closing hclosing => .pure ?_
  have hblock : (Piece.branch .switchBlock (opening :: cases ++ [closing])).Has P :=
    Piece.has_branch law .switchBlock (by simp [hopening, hcases, hclosing])
  simp only [List.cons_append] at hblock
  simp [hword, hselector, hblock]

theorem keeps_item : Keeps good (Piece.AllHave P) (item inner) := by
  refine .bind .tokens fun tokens _ => ?_
  refine .ite (keeps_single (keeps_bracketed law hinner .parenthesized "(" ")")) ?_
  refine .ite (keeps_single (keeps_bracketed law hinner .expression "[" "]")) ?_
  refine .ite (keeps_single (keeps_bracketed law hinner .expression "\x7b" "\x7d")) ?_
  refine .ite (keeps_single (keeps_bracketed law hinner .expression "\\\x7b" "\x7d")) ?_
  refine .ite .failure (.ite ?_ (.ite ?_ ?_))
  · refine .bind (.take law .token) fun arrow harrow => ?_
    refine .bind (hinner .block) fun body hbody => ?_
    exact .pure (by simp [harrow, hbody])
  · refine .bind (.take law .token) fun colons hcolons => ?_
    refine .bind (.take law .token) fun word hword => ?_
    exact .pure (by simp [hcolons, hword])
  · refine .ite (keeps_creation law hinner) (.ite (keeps_switch law hinner) ?_)
    exact keeps_single (.take law .token)

/-! ## Statements -/

theorem keeps_block : Keeps good (Piece.Has P) (block inner) := by
  refine .bind (.mark law "\x7b") fun opening hopening => ?_
  refine .bind (.repeatWhile (hinner .statement)) fun statements hstatements => ?_
  refine .bind (.mark law "\x7d") fun closing hclosing => ?_
  exact .pure (Piece.has_branch law .block (by simp [hopening, hstatements, hclosing]))

theorem keeps_controlled (word : Text) : Keeps good (Piece.AllHave P) (controlled inner word) := by
  refine .bind (.mark law word) fun first hfirst => ?_
  refine .bind (keeps_bracketed law hinner .parenthesized "(" ")") fun header hheader => ?_
  refine .bind (hinner .statement) fun statement hstatement => ?_
  exact .pure (by simp [hfirst, hheader, hstatement])

theorem keeps_conditional : Keeps good (Piece.AllHave P) (conditional inner) := by
  refine .bind (keeps_controlled law hinner "if") fun first hfirst => ?_
  refine .bind (.nextIs "else") fun _ _ => .ite ?_ (.pure hfirst)
  refine .bind (.mark law "else") fun word hword => ?_
  refine .bind (hinner .statement) fun other hother => ?_
  exact .pure (by simp [hfirst, hword, hother])

theorem keeps_doLoop : Keeps good (Piece.AllHave P) (doLoop inner) := by
  refine .bind (.mark law "do") fun first hfirst => ?_
  refine .bind (hinner .statement) fun statement hstatement => ?_
  refine .bind (keeps_itemsAndSemicolon law hinner) fun rest hrest => ?_
  exact .pure (by simp [hfirst, hstatement, hrest])

theorem keeps_clause : Keeps good (Piece.AllHave P) (clause inner) := by
  refine .bind (.take law .token) fun word hword => ?_
  refine .bind (.nextIs "(") fun _ _ => ?_
  extract_lets next
  have hnext : ∀ caught, Piece.AllHave P caught → Keeps good (Piece.AllHave P) (next caught) := by
    intro caught hcaught
    refine .bind (hinner .block) fun body hbody => .pure ?_
    have hnode : (Piece.branch .statement (word :: caught ++ body)).Has P :=
      Piece.has_branch law .statement (by simp [hword, hcaught, hbody])
    exact Piece.allHave_cons.2 ⟨hnode, Piece.allHave_nil⟩
  exact .ite (.bind (hinner .item) hnext) (.bind (.pure Piece.allHave_nil) hnext)

theorem keeps_guarded : Keeps good (Piece.AllHave P) (guarded inner) := by
  refine .bind (.mark law "try") fun word hword => ?_
  refine .bind (.nextIs "(") fun _ _ => ?_
  extract_lets next
  have hnext : ∀ resources, Piece.AllHave P resources →
      Keeps good (Piece.AllHave P) (next resources) := by
    intro resources hresources
    refine .bind (hinner .block) fun body hbody => ?_
    refine .bind (.repeatWhile (keeps_clause law hinner)) fun clauses hclauses => ?_
    exact .pure (by simp [hword, hresources, hbody, hclauses])
  exact .ite (.bind (hinner .item) hnext) (.bind (.pure Piece.allHave_nil) hnext)

theorem keeps_locked : Keeps good (Piece.AllHave P) (locked inner) := by
  refine .bind (.mark law "synchronized") fun word hword => ?_
  refine .bind (keeps_bracketed law hinner .parenthesized "(" ")") fun lock hlock => ?_
  refine .bind (hinner .block) fun body hbody => ?_
  exact .pure (by simp [hword, hlock, hbody])

theorem keeps_labelled : Keeps good (Piece.AllHave P) (labelled inner) := by
  refine .bind (.take law .identifier) fun name hname => ?_
  refine .bind (.mark law ":") fun colon hcolon => ?_
  refine .bind (hinner .statement) fun statement hstatement => ?_
  exact .pure (by simp [hname, hcolon, hstatement])

omit hinner in
theorem keeps_statementOf {reader : Reader (List Piece)} (h : Keeps good (Piece.AllHave P) reader) :
    Keeps good (Piece.Has P) (reader >>= statementOf) :=
  .bind h fun _ hpieces => .pure (Piece.has_branch law .statement hpieces)

theorem keeps_statement : Keeps good (Piece.Has P) (statement inner) := by
  refine .bind .tokens fun tokens _ => .ite (keeps_one hinner .block) ?_
  refine .ite (.take law .token) (.ite (keeps_one hinner .declaration) ?_)
  refine .ite (keeps_statementOf law (keeps_conditional law hinner)) ?_
  refine .ite (keeps_statementOf law (keeps_controlled law hinner "while")) ?_
  refine .ite (keeps_statementOf law (keeps_controlled law hinner "for")) ?_
  refine .ite (keeps_statementOf law (keeps_doLoop law hinner)) ?_
  refine .ite (keeps_statementOf law (keeps_switch law hinner)) ?_
  refine .ite (keeps_statementOf law (keeps_guarded law hinner)) ?_
  refine .ite (keeps_statementOf law (keeps_locked law hinner)) ?_
  refine .ite (keeps_statementOf law (keeps_labelled law hinner)) ?_
  exact keeps_statementOf law (keeps_itemsAndSemicolon law hinner)

/-! ## Members -/

omit law hinner in
theorem isWord_of_isName (token : Token) (h : token.isName = true) : token.isWord = true := by
  simp only [Token.isName, Bool.and_eq_true] at h
  exact h.1

theorem keeps_parameter : Keeps good (Piece.Has P) (parameter inner) := by
  refine .bind (keeps_modifiers law hinner) fun marks hmarks => ?_
  refine .bind (keeps_one hinner .plainType) fun type htype => ?_
  have hrole : (type.withRole .type).Has P := Piece.has_withRole law (by simp) htype
  extract_lets start stop
  have hstart : Piece.AllHave P start := by simp [start, hmarks, hrole]
  refine .bind_tokens fun tokens => .ite (fun _ => .of_keeps ?_) (.ite (fun _ => .of_keeps ?_)
    (.ite (fun hname => ?_) (.of_keeps .failure)))
  · refine .bind (keeps_annotations hinner) fun before hbefore => ?_
    refine .bind (.mark law "...") fun dots hdots => ?_
    refine .bind (keeps_annotations hinner) fun behind hbehind => ?_
    refine .bind (keeps_itemsUntil hinner stop) fun name hname => .pure ?_
    have hdeclarators := Piece.has_branch law .declarators hname
    exact Piece.has_branch law .spreadParameter
      (by simp [hstart, hbefore, hdots, hbehind, hdeclarators])
  · refine .bind (keeps_itemsUntil hinner stop) fun receiver hreceiver => ?_
    exact .pure (Piece.has_branch law .receiverParameter (by simp [hstart, hreceiver]))
  · refine .name law isWord_of_isName hname fun name hname => ?_
    refine .bind (keeps_itemsUntil hinner stop) fun brackets hbrackets => ?_
    exact .pure (Piece.has_branch law .formalParameter (by simp [hstart, hname, hbrackets]))

theorem keeps_formalParameters : Keeps good (Piece.Has P) (formalParameters inner) := by
  refine .bind (.mark law "(") fun opening hopening => ?_
  have hpiece : Keeps good (Piece.AllHave P) (do
      let piece ← if ← nextIs "," then take .token else parameter inner
      pure [piece]) := by
    refine .bind (.nextIs ",") fun _ _ => .ite ?_ ?_
    · exact keeps_single (.take law .token)
    · exact keeps_single (keeps_parameter law hinner)
  refine .bind (.repeatWhile hpiece) fun parameters hparameters => ?_
  refine .bind (.mark law ")") fun closing hclosing => ?_
  exact .pure (Piece.has_branch law .formalParameters (by simp [hopening, hparameters, hclosing]))

omit hinner in
theorem keeps_declaredName : Keeps good (Piece.Has P) declaredName := by
  refine .bind_ahead fun tokens => .ite (fun hname => ?_) (.of_keeps .failure)
  exact .name law (fun _ => id) hname fun name hname => .pure hname

theorem keeps_callableBody : Keeps good (Piece.AllHave P) (callableBody inner) := by
  refine .bind (.nextIs ";") fun _ _ => .ite (keeps_single (.mark law ";")) ?_
  refine .bind (keeps_one hinner .block) fun body hbody => .pure ?_
  have hrole : (body.withRole .body).Has P := Piece.has_withRole law (by simp) hbody
  exact Piece.allHave_cons.2 ⟨hrole, Piece.allHave_nil⟩

theorem keeps_callableHeader : Keeps good (Piece.AllHave P) (callableHeader inner) :=
  keeps_headerUntil law hinner _

theorem keeps_constructor {start : List Piece} (hstart : Piece.AllHave P start) :
    Keeps good (Piece.Has P) (constructor_ inner start) := by
  refine .bind (keeps_declaredName law) fun name hname => ?_
  refine .bind (.nextIs "(") fun _ _ => .ite ?_ ?_
  · refine .bind (keeps_formalParameters law hinner) fun parameters hparameters => ?_
    refine .bind (keeps_callableHeader law hinner) fun header hheader => ?_
    refine .bind (keeps_callableBody law hinner) fun body hbody => .pure ?_
    have hrole : (parameters.withRole .parameters).Has P :=
      Piece.has_withRole law (by simp) hparameters
    exact Piece.has_branch law .constructorDeclaration
      (by simp [hstart, hname, hrole, hheader, hbody])
  · refine .bind (keeps_callableBody law hinner) fun body hbody => ?_
    exact .pure (Piece.has_branch law .constructorDeclaration (by simp [hstart, hname, hbody]))

theorem keeps_method {start : List Piece} (hstart : Piece.AllHave P start) :
    Keeps good (Piece.Has P) (method inner start) := by
  refine .bind (keeps_formalParameters law hinner) fun parameters hparameters => ?_
  refine .bind (keeps_callableHeader law hinner) fun header hheader => ?_
  refine .bind (keeps_callableBody law hinner) fun body hbody => .pure ?_
  have hrole : (parameters.withRole .parameters).Has P :=
    Piece.has_withRole law (by simp) hparameters
  exact Piece.has_branch law .methodDeclaration (by simp [hstart, hrole, hheader, hbody])

theorem keeps_annotationElement {start : List Piece} (hstart : Piece.AllHave P start) :
    Keeps good (Piece.Has P) (annotationElement inner start) := by
  refine .bind (keeps_itemsAndSemicolon law hinner) fun rest hrest => ?_
  exact .pure (Piece.has_branch law .annotationElementDeclaration (by simp [hstart, hrest]))

omit law hinner in
theorem keeps_checkValues (tokens : List Token) :
    Keeps good (fun _ => True) (checkValues tokens) := by
  induction tokens with
  | nil => exact .pure trivial
  | cons token rest ih => exact .ite .fault (.ite (.pure trivial) ih)

theorem keeps_field (shape : BodyShape) {start : List Piece} (hstart : Piece.AllHave P start)
    {name : Piece} (hname : name.Has P) :
    Keeps good (Piece.Has P) (field inner shape start name) := by
  refine .bind .tokens fun tokens _ => ?_
  refine .bind (keeps_checkValues tokens) fun _ _ => .ite ?_ (.ite ?_ .failure)
  · refine .bind .fault fun _ _ => .pure ?_
    have hdeclarators : (Piece.branch .declarators [name]).Has P :=
      Piece.has_branch law .declarators (by simp [hname])
    exact Piece.has_branch law _ (by simp [hstart, hdeclarators])
  · refine .bind (keeps_itemsUntil hinner _) fun rest hrest => ?_
    refine .bind (.mark law ";") fun last hlast => .pure ?_
    have hdeclarators : (Piece.branch .declarators (name :: rest)).Has P :=
      Piece.has_branch law .declarators (by simp [hname, hrest])
    exact Piece.has_branch law _ (by simp [hstart, hdeclarators, hlast])

theorem keeps_typedMember (shape : BodyShape) {start : List Piece}
    (hstart : Piece.AllHave P start) :
    Keeps good (Piece.Has P) (typedMember inner shape start) := by
  refine .bind (keeps_one hinner .plainType) fun type htype => ?_
  have hrole : (type.withRole .type).Has P := Piece.has_withRole law (by simp) htype
  have htyped : Piece.AllHave P (start ++ [type.withRole .type]) := by simp [hstart, hrole]
  refine .bind (keeps_declaredName law) fun name hname => ?_
  have hnamed : Piece.AllHave P (start ++ [type.withRole .type] ++ [name]) :=
    Piece.allHave_append.2 ⟨htyped, by simp [hname]⟩
  refine .bind (.nextIs "(") fun _ _ => .ite (.ite ?_ ?_) ?_
  · exact keeps_annotationElement law hinner hnamed
  · exact keeps_method law hinner hnamed
  · exact keeps_field law hinner shape htyped hname

theorem keeps_member (shape : BodyShape) : Keeps good (Piece.Has P) (member inner shape) := by
  refine .bind .tokens fun tokens _ => .ite (.take law .token) ?_
  refine .ite (keeps_one hinner .block) (.ite ?_ (.ite (keeps_one hinner .declaration) ?_))
  · refine .bind (.mark law "static") fun word hword => ?_
    refine .bind (keeps_one hinner .block) fun body hbody => ?_
    exact .pure (Piece.has_branch law .initializer (by simp [hword, hbody]))
  · refine .bind (keeps_modifiers law hinner) fun marks hmarks => ?_
    refine .bind (keeps_typeParameters law hinner) fun parameters hparameters => ?_
    refine .bind (keeps_annotations hinner) fun more hmore => ?_
    have hstart : Piece.AllHave P (marks ++ parameters ++ more) := by
      simp [hmarks, hparameters, hmore]
    refine .bind (.ahead _) fun _ _ => .ite ?_ ?_
    · exact keeps_constructor law hinner hstart
    · exact keeps_typedMember law hinner shape hstart

omit hinner in
theorem keeps_faultyMember : Keeps good (Piece.Has P) faultyMember := by
  refine .bind .tokens fun tokens _ => ?_
  cases Ahead.faultLength? 0 tokens with
  | none => exact .failure
  | some length =>
    refine .bind .fault fun _ _ => ?_
    refine .bind (.loop (keeps_single (.take law .token)) _) fun pieces hpieces => ?_
    exact .pure (Piece.has_branch law .fault hpieces)

theorem keeps_members (shape : BodyShape) : Keeps good (Piece.AllHave P) (members inner shape) :=
  .repeatWhile (keeps_single (.either (keeps_one hinner (.member shape)) (keeps_faultyMember law)))

omit hinner in
theorem keeps_bodyEnd : Keeps good (Piece.AllHave P) bodyEnd := by
  refine .bind (.ahead _) fun _ _ => .ite ?_ (keeps_single (.mark law "\x7d"))
  exact .bind .fault fun _ _ => .pure Piece.allHave_nil

theorem keeps_enumConstant : Keeps good (Piece.Has P) (enumConstant inner) := by
  refine .bind (keeps_modifiers law hinner) fun marks hmarks => ?_
  refine .bind (keeps_declaredName law) fun name hname => ?_
  refine .bind (.nextIs "(") fun _ _ => ?_
  extract_lets next
  have hnext : ∀ arguments, Piece.AllHave P arguments →
      Keeps good (Piece.Has P) (next arguments) := by
    intro arguments harguments
    refine .bind (.nextIs "\x7b") fun _ _ => ?_
    extract_lets last
    have hlast : ∀ body, Piece.AllHave P body → Keeps good (Piece.Has P) (last body) :=
      fun body hbody => .pure
        (Piece.has_branch law .enumConstant (by simp [hmarks, hname, harguments, hbody]))
    exact .ite (.bind (hinner (.body .ofClass)) hlast) (.bind (.pure Piece.allHave_nil) hlast)
  exact .ite (.bind (hinner .item) hnext) (.bind (.pure Piece.allHave_nil) hnext)

theorem keeps_enumMembers : Keeps good (Piece.AllHave P) (enumMembers inner) := by
  refine .bind (.nextIs ";") fun _ _ => .ite ?_ (.pure Piece.allHave_nil)
  refine .bind (.mark law ";") fun first hfirst => ?_
  refine .bind (keeps_members law hinner .ofClass) fun rest hrest => .pure ?_
  have hnode := Piece.has_branch law .enumBodyDeclarations (Piece.allHave_cons.2 ⟨hfirst, hrest⟩)
  exact Piece.allHave_cons.2 ⟨hnode, Piece.allHave_nil⟩

theorem keeps_enumBody : Keeps good (Piece.Has P) (enumBody inner) := by
  refine .bind (.mark law "\x7b") fun opening hopening => ?_
  have hpiece : Keeps good (Piece.AllHave P) (do
      let piece ← if ← nextIs "," then take .token else enumConstant inner
      pure [piece]) := by
    refine .bind (.nextIs ",") fun _ _ => .ite ?_ ?_
    · exact keeps_single (.take law .token)
    · exact keeps_single (keeps_enumConstant law hinner)
  refine .bind (.repeatWhile hpiece) fun constants hconstants => ?_
  refine .bind (keeps_enumMembers law hinner) fun rest hrest => ?_
  refine .bind (keeps_bodyEnd law) fun closing hclosing => ?_
  exact .pure (Piece.has_branch law .enumBody (by simp [hopening, hconstants, hrest, hclosing]))

theorem keeps_body (shape : BodyShape) : Keeps good (Piece.Has P) (body inner shape) := by
  refine .ite (keeps_enumBody law hinner) ?_
  refine .bind (.mark law "\x7b") fun opening hopening => ?_
  refine .bind (keeps_members law hinner shape) fun members hmembers => ?_
  refine .bind (keeps_bodyEnd law) fun closing hclosing => ?_
  exact .pure (Piece.has_branch law _ (by simp [hopening, hmembers, hclosing]))

/-! ## Declarations -/

theorem keeps_declarationRest (kind : NodeKind) (shape : BodyShape) {start : List Piece}
    (hstart : Piece.AllHave P start) :
    Keeps good (Piece.Has P) (declarationRest inner kind shape start) := by
  refine .bind (keeps_declaredName law) fun name hname => ?_
  extract_lets first
  have hfirst : ∀ before, Piece.AllHave P before → Keeps good (Piece.Has P) (first before) := by
    intro before hbefore
    unfold first
    extract_lets last
    have hlast : ∀ parameters, Piece.AllHave P parameters →
        Keeps good (Piece.Has P) (last parameters) := by
      intro parameters hparameters
      refine .bind (keeps_headerUntil law hinner _) fun header hheader => ?_
      refine .bind (keeps_one hinner (.body shape)) fun body hbody => .pure ?_
      have hrole : (body.withRole .body).Has P := Piece.has_withRole law (by simp) hbody
      exact Piece.has_branch law kind
        (by simp [hstart, hname, hbefore, hparameters, hheader, hrole])
    refine .ite ?_ (.bind (.pure Piece.allHave_nil) hlast)
    refine .bind (keeps_formalParameters law hinner) fun parameters hparameters => ?_
    have hrole : (parameters.withRole .parameters).Has P :=
      Piece.has_withRole law (by simp) hparameters
    exact .bind (.pure (by simp [hrole])) hlast
  refine .ite ?_ (.bind (.pure Piece.allHave_nil) hfirst)
  exact .bind (keeps_headerUntil law hinner _) hfirst

theorem keeps_declaration : Keeps good (Piece.Has P) (declaration inner) := by
  refine .bind (keeps_modifiers law hinner) fun marks hmarks => ?_
  refine .bind .tokens fun tokens _ => ?_
  refine .bind (.take law .token) fun first hfirst => ?_
  have hstart : Piece.AllHave P (marks ++ [first]) := by simp [hmarks, hfirst]
  refine .ite (keeps_declarationRest law hinner _ _ hstart) ?_
  refine .ite (keeps_declarationRest law hinner _ _ hstart) ?_
  refine .ite (keeps_declarationRest law hinner _ _ hstart) ?_
  refine .ite (keeps_declarationRest law hinner _ _ hstart) (.ite ?_ .failure)
  refine .bind (.mark law "interface") fun word hword => ?_
  exact keeps_declarationRest law hinner _ _ (Piece.allHave_append.2 ⟨hstart, by simp [hword]⟩)

theorem keeps_freeMethod : Keeps good (Piece.Has P) (freeMethod inner) := by
  refine .bind (keeps_modifiers law hinner) fun marks hmarks => ?_
  refine .bind (keeps_typeParameters law hinner) fun parameters hparameters => ?_
  refine .bind (keeps_annotations hinner) fun more hmore => ?_
  refine .bind (keeps_one hinner .plainType) fun type htype => ?_
  refine .bind (keeps_declaredName law) fun name hname => ?_
  have hrole : (type.withRole .type).Has P := Piece.has_withRole law (by simp) htype
  exact keeps_method law hinner (by simp [hmarks, hparameters, hmore, hrole, hname])

theorem keeps_packageDeclaration : Keeps good (Piece.Has P) (packageDeclaration inner) := by
  refine .bind (keeps_annotations hinner) fun marks hmarks => ?_
  refine .bind (.mark law "package") fun word hword => ?_
  refine .bind (keeps_qualifiedName law) fun name hname => ?_
  refine .bind (.mark law ";") fun last hlast => ?_
  exact .pure (Piece.has_branch law .packageDeclaration (by simp [hmarks, hword, hname, hlast]))

theorem keeps_moduleDeclaration : Keeps good (Piece.Has P) (moduleDeclaration inner) := by
  refine .bind (keeps_headerUntil law hinner _) fun header hheader => ?_
  refine .bind (keeps_bracketed law hinner .block "\x7b" "\x7d") fun body hbody => ?_
  exact .pure (Piece.has_branch law .moduleDeclaration (by simp [hheader, hbody]))

theorem keeps_outermost : Keeps good (Piece.Has P) (outermost inner) := by
  refine .bind .tokens fun tokens _ => .ite (keeps_packageDeclaration law hinner) (.ite ?_ ?_)
  · refine .bind (keeps_itemsAndSemicolon law hinner) fun rest hrest => ?_
    exact .pure (Piece.has_branch law .importDeclaration hrest)
  · refine .ite (keeps_moduleDeclaration law hinner) (.ite (keeps_one hinner .declaration) ?_)
    exact .either (keeps_freeMethod law hinner) (keeps_one hinner .statement)

theorem keeps_step (part : Part) : Keeps good (Piece.AllHave P) (step inner part) := by
  cases part with
  | annotationUse => exact keeps_single (keeps_annotationUse law hinner)
  | type => exact keeps_single (keeps_type law hinner)
  | plainType => exact keeps_single (keeps_plainType law hinner)
  | simpleType => exact keeps_single (keeps_simpleType law hinner)
  | typeArguments => exact keeps_single (keeps_typeArguments law hinner)
  | item => exact keeps_item law hinner
  | block => exact keeps_single (keeps_block law hinner)
  | statement => exact keeps_single (keeps_statement law hinner)
  | declaration => exact keeps_single (keeps_declaration law hinner)
  | body shape => exact keeps_single (keeps_body law hinner shape)
  | member shape => exact keeps_single (keeps_member law hinner shape)

end Parts

/-- By induction on the depth, as the readers for inner parts are those of one level less. -/
theorem trusts_read (law : Lasting good P) (depth : Nat) : Trusts good P (read depth) := by
  induction depth with
  | zero => exact fun _ => .failure
  | succ depth ih => exact keeps_step law ih

theorem keeps_everything (law : Lasting good P) (depth : Nat) :
    Keeps good (Piece.AllHave P) (everything depth) := by
  refine .repeatWhile (keeps_single (.either (keeps_outermost law (trusts_read law depth)) ?_))
  exact .bind .fault fun _ _ => .take law .fault

end Grammar

/-- A lasting property holds of the whole tree of a source with good tokens and trailing
comments. -/
theorem holds_outline {good : Token → Prop} {P : Tree → Prop} (law : Lasting good P)
    {source : Text} (hgood : ∀ token ∈ (Token.group [] (lexemes source)).1, good token)
    (hcomments : ∀ x ∈ (Token.group [] (lexemes source)).2, P (commentNode x)) :
    P (outline source).root := by
  have htrailing : ∀ node ∈ (Token.group [] (lexemes source)).2.map commentNode, P node := by
    intro node hnode
    obtain ⟨x, hx, rfl⟩ := List.mem_map.1 hnode
    exact hcomments x hx
  rw [outline]
  cases hread : Grammar.everything (8 * (Token.group [] (lexemes source)).1.length + 8)
      ⟨(Token.group [] (lexemes source)).1, false⟩ with
  | none =>
    simp only [hread]
    exact law.branch _ _ htrailing
  | some result =>
    obtain ⟨pieces, state⟩ := result
    simp only [hread]
    have hpieces := (Grammar.keeps_everything law _ _ _ _ hgood hread).1
    refine law.branch _ _ ?_
    intro node hnode
    rcases List.mem_append.1 hnode with hnode | hnode
    · exact Piece.has_nodes hpieces node hnode
    · exact htrailing node hnode

end DocGraph.Java
