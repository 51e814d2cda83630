import DocGraph.Java.Grammar
import DocGraph.Java.SourceReader
import DocGraph.Proofs.Java.Grammar
import DocGraph.Proofs.Java.Preorder

/-!
# The outline as a reader

A lexeme is a part of its source, and its line is counted by the line feeds before it. The outline
has no lexemes but those of its source, and a node that is a name is a word among them. So the
outline is a tree that a reader may give.
-/

namespace DocGraph

open Java

/-! ## Words -/

namespace Java.Lexeme

theorem kind_cutString (opening : Text) (triple : Bool) (t : Text) (outer : List Context) :
    (cutString opening triple t outer).1 = .literal := by
  rw [cutString]
  split <;> rfl

theorem plain_of_cutCode {c : Char} {rest text after : Text} {contexts inner : List Context}
    (h : cutCode c rest contexts = (.word, text, after, inner)) : isPlainName text = true := by
  have hliteral : ∀ {opening triple t outer},
      cutString opening triple t outer ≠ (.word, text, after, inner) := by
    intro opening triple t outer heq
    have hkind := kind_cutString opening triple t outer
    rw [heq] at hkind
    cases hkind
  unfold cutCode at h
  simp only at h
  split at h
  · cases h
  split at h
  · cases h
  split at h
  · exact absurd h hliteral
  split at h
  · exact absurd h hliteral
  split at h
  · cases h
  split at h
  · cases h
  split at h
  · split at h
    · cases h
      decide
    · cases h
      rw [isPlainName, List.all_eq_true]
      intro d hd
      rw [Bool.or_eq_true]
      exact .inl (List.all_eq_true.1 List.all_takeWhile d hd)
  · split at h <;> cases h

/-- A lexeme that is a word has the characters of one. -/
theorem plain_of_cut {c : Char} {rest text after : Text} {contexts inner : List Context}
    (h : cut c rest contexts = (.word, text, after, inner)) : isPlainName text = true := by
  unfold cut at h
  split at h
  · split at h
    · cases h
    · next triple outer _ =>
      have hkind := kind_cutString [] triple (c :: rest) outer
      rw [h] at hkind
      cases hkind
  · exact plain_of_cutCode h

theorem plain_of_mem_cutSteps {steps line : Nat} {contexts : List Context} {t : Text} {x : Lexeme}
    (h : x ∈ cutSteps steps line contexts t) (hword : x.kind = .word) :
    isPlainName x.text = true := by
  induction steps generalizing line contexts t with
  | zero => cases h
  | succ steps ih =>
    rw [cutSteps] at h
    simp only at h
    split at h
    · cases h
    · next c rest _ =>
      rcases List.mem_cons.1 h with rfl | h
      · exact plain_of_cut (Prod.ext hword rfl)
      · exact ih h

end Java.Lexeme

namespace Java

/-- A word among the tokens of a source has the characters of one. -/
def Token.IsPlain (token : Token) : Prop :=
  token.isWord = true → isPlainName token.lexeme.text = true

/-- A token has no lexemes but the given ones. -/
def Token.IsFrom (xs : List Lexeme) (token : Token) : Prop :=
  token.lexeme ∈ xs ∧ ∀ x ∈ token.comments, x ∈ xs

theorem isFrom_of_mem_group {xs comments rest : List Lexeme} (hcomments : ∀ x ∈ comments, x ∈ xs)
    (hrest : ∀ x ∈ rest, x ∈ xs) :
    (∀ token ∈ (Token.group comments rest).1, token.IsFrom xs) ∧
      ∀ x ∈ (Token.group comments rest).2, x ∈ xs := by
  induction rest generalizing comments with
  | nil => exact ⟨by simp [Token.group], hcomments⟩
  | cons y rest ih =>
    rw [List.forall_mem_cons] at hrest
    rw [Token.group]
    split
    · refine ih ?_ hrest.2
      simpa [or_imp, forall_and] using ⟨hcomments, hrest.1⟩
    · obtain ⟨htokens, htrailing⟩ := @ih [] (by simp) hrest.2
      refine ⟨?_, htrailing⟩
      simp only [List.forall_mem_cons]
      exact ⟨⟨hrest.1, hcomments⟩, htokens⟩

/-- The tokens of a source and the comments behind them are made of its lexemes. -/
theorem isFrom_tokens (source : Text) :
    (∀ token ∈ (Token.group [] (lexemes source)).1, token.IsFrom (lexemes source)) ∧
      ∀ x ∈ (Token.group [] (lexemes source)).2, x ∈ lexemes source :=
  isFrom_of_mem_group (by simp) fun _ => id

theorem isPlain_of_mem_tokens {source : Text} {token : Token}
    (h : token ∈ (Token.group [] (lexemes source)).1) : token.IsPlain := by
  intro hword
  have hlexeme := ((isFrom_tokens source).1 token h).1
  exact Lexeme.plain_of_mem_cutSteps hlexeme (by simpa [Token.isWord] using hword)

/-! ## Names in trees -/

namespace Tree

/-- A tree whose names are leaves with the characters of words. -/
inductive HasPlainNames : Tree → Prop
  | leaf {kind : NodeKind} {role : Option Role} {lexeme : Lexeme}
      (h : role = some .name → isPlainName lexeme.text = true) :
      HasPlainNames (.leaf kind role lexeme)
  | branch {kind : NodeKind} {role : Option Role} {children : List Tree} (h : role ≠ some .name)
      (hchildren : ∀ child ∈ children, HasPlainNames child) :
      HasPlainNames (.branch kind role children)

theorem lasting_hasPlainNames : Lasting Token.IsPlain HasPlainNames where
  token kind token _ := .leaf (by simp)
  name token hplain hword := .leaf fun _ => hplain hword
  comment _ _ x _ := .leaf (by simp)
  branch kind children hchildren := .branch (by simp) hchildren
  role role node hrole hnode := by
    have hsome : some role ≠ some .name := by simpa using hrole
    cases hnode with
    | leaf _ => exact .leaf fun h => absurd h hsome
    | branch _ hchildren => exact .branch hsome hchildren

theorem hasPlainNames_outline (source : Text) : (outline source).root.HasPlainNames :=
  holds_outline lasting_hasPlainNames (fun _ => isPlain_of_mem_tokens)
    fun _ _ => .leaf (by simp)

theorem HasPlainNames.of_mem_children {node child : Tree} (h : node.HasPlainNames)
    (hchild : child ∈ node.children) : child.HasPlainNames := by
  cases h with
  | leaf _ => cases hchild
  | branch _ hchildren => exact hchildren child hchild

theorem isPlainName_declaredName {node : Tree} (h : node.HasPlainNames) :
    isPlainName node.declaredName = true := by
  rw [declaredName]
  cases hname : node.child? .name with
  | none => rfl
  | some name =>
    have hplain := h.of_mem_children (List.mem_of_find?_eq_some hname)
    have hrole : name.role = some .name := by simpa using List.find?_some hname
    cases hplain with
    | leaf hleaf => simpa [text, lexemes] using hleaf hrole
    | branch hbranch _ => exact absurd hrole hbranch

end Tree

/-! ## Visits -/

/-- A property that passes from a node to its children holds of all that a walk visits. -/
theorem Tree.holds_visits {P : Tree → Prop}
    (hpass : ∀ node, P node → ∀ child ∈ node.children, P child) {root : Tree} (h : P root) :
    ∀ visit ∈ root.visits, P visit.node := by
  intro visit hvisit
  have hwithin : visit.node.IsWithin root := Tree.exists_mem_visits_iff.1 ⟨visit, hvisit, rfl⟩
  clear hvisit
  induction hwithin with
  | self => exact h
  | inChild hchild _ ih => exact ih (hpass _ h _ hchild)

end Java

namespace Java.Lexeme

variable {c : Char} {t text rest after : Text} {contexts inner : List Context}

/-! ## Parts of a source -/

theorem spanBlockComment_append (t : Text) :
    (spanBlockComment t).1 ++ (spanBlockComment t).2 = t := by
  fun_induction spanBlockComment t with
  | case1 => rfl
  | case2 => rfl
  | case3 c rest _ comment after hsplit ih =>
    rw [hsplit] at ih
    rw [List.cons_append, ih]

theorem spanString_append (triple : Bool) (t : Text) :
    (spanString triple t).1 ++ (spanString triple t).2.1 = t := by
  fun_induction spanString triple t <;> simp_all

theorem spanCharacter_append (t : Text) : (spanCharacter t).1 ++ (spanCharacter t).2 = t := by
  fun_induction spanCharacter t <;> simp_all

theorem cutString_append (opening : Text) (triple : Bool) (t : Text) (outer : List Context) :
    (cutString opening triple t outer).2.1 ++ (cutString opening triple t outer).2.2.1 =
      opening ++ t := by
  have happend := spanString_append triple t
  rw [cutString]
  split
  · next hspan =>
    rw [hspan] at happend
    rw [List.append_assoc, happend]
  · next hspan =>
    rw [hspan] at happend
    rw [List.append_assoc, happend]

theorem append_drop_of_startsWith {start t : Text} (h : Text.startsWith start t = true) :
    start ++ t.drop start.length = t := by
  obtain ⟨rest, rfl⟩ := Text.startsWith_iff.1 h
  rw [List.drop_left]

theorem cutCode_append (c : Char) (rest : Text) (contexts : List Context) :
    (cutCode c rest contexts).2.1 ++ (cutCode c rest contexts).2.2.1 = c :: rest := by
  unfold cutCode
  simp only
  split
  · exact List.takeWhile_append_dropWhile
  split
  · next hcomment =>
    have hspan := spanBlockComment_append ((c :: rest).drop 2)
    rw [List.cons_append, List.cons_append, hspan]
    exact append_drop_of_startsWith hcomment
  split
  · next hquotes =>
    rw [cutString_append]
    exact append_drop_of_startsWith hquotes
  split
  · next hquote => rw [cutString_append, hquote, List.singleton_append]
  split
  · rw [List.cons_append, spanCharacter_append]
  split
  · exact List.takeWhile_append_dropWhile
  split
  · split
    · next hnon =>
      rw [Bool.and_eq_true, decide_eq_true_iff] at hnon
      have hsealed := append_drop_of_startsWith hnon.2
      have hword := @List.takeWhile_append_dropWhile _ isWordPart (c :: rest)
      rw [hnon.1, ← hsealed, ← List.append_assoc] at hword
      exact hword
    · exact List.takeWhile_append_dropWhile
  · split
    · next mark hmark =>
      have hstarts : Text.startsWith mark (c :: rest) = true := by
        simpa using List.find?_some hmark
      exact append_drop_of_startsWith hstarts
    · rfl

/-- A lexeme and what follows it are the text that it is cut from. -/
theorem cut_append (c : Char) (rest : Text) (contexts : List Context) :
    (cut c rest contexts).2.1 ++ (cut c rest contexts).2.2.1 = c :: rest := by
  unfold cut
  split
  · split
    · next hopens =>
      obtain ⟨more, rfl⟩ := List.head?_eq_some_iff.1 hopens.2
      rw [hopens.1]
      rfl
    · rw [cutString_append, List.nil_append]
  · exact cutCode_append c rest contexts

theorem lineFeeds_append (a b : Text) : lineFeeds (a ++ b) = lineFeeds a + lineFeeds b :=
  List.count_append

theorem StandsIn.append {x : Lexeme} {line : Nat} (before : Text)
    (h : x.StandsIn (line + lineFeeds before) t) : x.StandsIn line (before ++ t) := by
  obtain ⟨inner, after, rfl, hline⟩ := h
  refine ⟨before ++ inner, after, by simp, ?_⟩
  rw [hline, lineFeeds_append, Nat.add_assoc]

/-- By induction on the steps: a step cuts a gap and a lexeme off the front of the text. -/
theorem standsIn_of_mem_cutSteps {steps line : Nat} {x : Lexeme}
    (h : x ∈ cutSteps steps line contexts t) : x.StandsIn line t := by
  induction steps generalizing line contexts t with
  | zero => cases h
  | succ steps ih =>
    rw [cutSteps] at h
    simp only at h
    generalize hgap : (if skipsBlanks contexts then t.takeWhile isBlank else []) = gap at h
    have hsplit : gap ++ t.drop gap.length = t := by
      rw [← hgap]
      split
      · exact append_drop_of_startsWith (Text.startsWith_iff.2 (List.takeWhile_prefix _))
      · rfl
    split at h
    · cases h
    · next c rest hrest =>
      rw [hrest] at hsplit
      rw [← hsplit]
      refine StandsIn.append gap ?_
      have hcut := cut_append c rest contexts
      rcases List.mem_cons.1 h with rfl | h
      · exact ⟨[], (cut c rest contexts).2.2.1, hcut.symm, rfl⟩
      · rw [← hcut]
        exact (ih h).append _

theorem standsIn_of_mem_lexemes {source : Text} {x : Lexeme} (h : x ∈ lexemes source) :
    x.StandsIn 1 source := by
  have hstands := standsIn_of_mem_cutSteps h
  cases source with
  | nil => exact hstands
  | cons c rest =>
    rw [withoutMark] at hstands
    split at hstands
    · next hmark =>
      have hfeed : lineFeeds [c] = 0 := by
        refine List.count_eq_zero.2 fun hmem => ?_
        rw [← List.mem_singleton.1 hmem] at hmark
        exact absurd hmark (by decide)
      refine StandsIn.append [c] ?_
      rwa [hfeed]
    · exact hstands

end Java.Lexeme

namespace Java

/-- A tree has no lexemes but the given ones. -/
def Tree.IsFrom (xs : List Lexeme) (node : Tree) : Prop := ∀ x ∈ node.lexemes, x ∈ xs

variable {xs : List Lexeme} {node : Tree} {source : Text}

namespace Tree

theorem mem_lexemesOfAll_iff {x : Lexeme} {nodes : List Tree} :
    x ∈ lexemesOfAll nodes ↔ ∃ node ∈ nodes, x ∈ node.lexemes := by
  induction nodes with
  | nil => simp [lexemesOfAll]
  | cons node rest ih => simp [lexemesOfAll, ih]

theorem isFrom_leaf {kind : NodeKind} {role : Option Role} {x : Lexeme} :
    IsFrom xs (.leaf kind role x) ↔ x ∈ xs := by
  simp [IsFrom, lexemes]

theorem isFrom_branch {kind : NodeKind} {role : Option Role} {children : List Tree} :
    IsFrom xs (.branch kind role children) ↔ ∀ child ∈ children, child.IsFrom xs := by
  simp only [IsFrom, lexemes, mem_lexemesOfAll_iff]
  grind

theorem IsFrom.of_mem_children {child : Tree} (h : node.IsFrom xs)
    (hchild : child ∈ node.children) : child.IsFrom xs := by
  cases node with
  | leaf => cases hchild
  | branch => exact isFrom_branch.1 h child hchild

end Tree

theorem lasting_isFrom (xs : List Lexeme) : Lasting (Token.IsFrom xs) (Tree.IsFrom xs) where
  token _ _ hfrom := Tree.isFrom_leaf.2 hfrom.1
  name _ hfrom _ := Tree.isFrom_leaf.2 hfrom.1
  comment _ hfrom x hx := Tree.isFrom_leaf.2 (hfrom.2 x hx)
  branch _ _ hchildren := Tree.isFrom_branch.2 hchildren
  role _ node _ hnode := by
    cases node with
    | leaf => exact hnode
    | branch => exact hnode

theorem isFrom_outline (source : Text) : (outline source).root.IsFrom (lexemes source) := by
  obtain ⟨htokens, htrailing⟩ := isFrom_tokens source
  exact holds_outline (lasting_isFrom _) htokens
    fun x hx => Tree.isFrom_leaf.2 (htrailing x hx)

/-- The outline of a source is a reader of it. -/
instance : SourceReader where
  tree := outline
  plainNames h := Tree.isPlainName_declaredName
    (Tree.holds_visits (fun _ h _ => h.of_mem_children) (Tree.hasPlainNames_outline _) _ h)
  standsIn h := Lexeme.standsIn_of_mem_lexemes (isFrom_outline _ _ h)

end Java

end DocGraph
