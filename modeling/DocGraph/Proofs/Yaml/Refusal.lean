import DocGraph.Proofs.Yaml.Faults

/-!
# Tokens that are refused

Tokens that fit no document are refused, and nothing else can go wrong while nodes are read: a tag
that is not known still makes a node, and what a scalar stands for is not asked here.
-/

namespace DocGraph.Yaml

namespace Reader

variable {α β : Type}

/-- Whatever the state, a reader ends well or refuses the text. -/
def OnlyRefuses (reader : Reader α) : Prop :=
  ∀ reading, FaultsOnly (· = .malformed) (reader reading)

namespace OnlyRefuses

theorem pure {a : α} : OnlyRefuses (pure a) := fun _ => .ok

theorem get : OnlyRefuses get := fun _ => .ok

theorem set {reading : Reading} : OnlyRefuses (set reading) := fun _ => .ok

theorem modify {f : Reading → Reading} : OnlyRefuses (modify f) := fun _ => .ok

theorem refuse : OnlyRefuses (refuse : Reader α) := fun _ => .error rfl

theorem bind {reader : Reader α} {next : α → Reader β} (hreader : OnlyRefuses reader)
    (hnext : ∀ a, OnlyRefuses (next a)) : OnlyRefuses (reader >>= next) :=
  fun reading => .bind (hreader reading) fun found => hnext found.1 found.2

theorem map {reader : Reader α} {f : α → β} (h : OnlyRefuses reader) : OnlyRefuses (f <$> reader) :=
  fun reading => .bind (h reading) fun _ => .ok

theorem ite {c : Prop} [Decidable c] {first second : Reader α} (hfirst : OnlyRefuses first)
    (hsecond : OnlyRefuses second) : OnlyRefuses (if c then first else second) := by
  split
  · exact hfirst
  · exact hsecond

theorem peek : OnlyRefuses peek := .bind .get fun _ => .pure

theorem take : OnlyRefuses take := .modify

theorem takes (token : Token) : OnlyRefuses (takes token) :=
  .bind .peek fun _ => .ite (.bind .take fun _ => .pure) .pure

theorem goesOn (isFirst : Bool) : OnlyRefuses (goesOn isFirst) := .ite .pure (.takes _)

theorem isAt (tokens : List Token) : OnlyRefuses (isAt tokens) := .bind .peek fun _ => .pure

theorem newNumber : OnlyRefuses newNumber := .bind .get fun _ => .bind .set fun _ => .pure

theorem fullTag (use : TagUse) : OnlyRefuses (fullTag use) := by
  unfold Reader.fullTag
  split
  · exact .pure
  · refine .bind .get fun reading => ?_
    split
    · exact .pure
    · exact .refuse

theorem anchored (name : Text) : OnlyRefuses (anchored name) := by
  refine .bind .get fun reading => ?_
  split
  · exact .pure
  · exact .refuse

theorem openAnchor (name : Option Text) : OnlyRefuses (openAnchor name) := by
  cases name with
  | none => exact .pure
  | some name => exact .bind .get fun reading => .ite .refuse .modify

theorem closeAnchor (name : Option Text) (node : Node) : OnlyRefuses (closeAnchor name node) := by
  cases name with
  | none => exact .pure
  | some name => exact .bind .modify fun _ => .pure

theorem properties : OnlyRefuses properties := by
  refine .bind .peek fun first => ?_
  split
  · refine .bind .take fun _ => .bind .peek fun second => ?_
    split
    · exact .bind .take fun _ => .bind (.fullTag _) fun _ => .pure
    · exact .pure
  · refine .bind .take fun _ => .bind .peek fun second => ?_
    split
    · exact .bind .take fun _ => .bind (.fullTag _) fun _ => .pure
    · exact .bind (.fullTag _) fun _ => .pure
  · exact .pure

/-! ## Nodes

The readers of nodes call each other with less fuel, and so do their lemmas. -/

mutual

theorem node : ∀ fuel place, OnlyRefuses (node fuel place)
  | 0, _ => .refuse
  | fuel + 1, place => by
    refine .bind .peek fun first => ?_
    split
    · exact .bind .take fun _ => .anchored _
    · refine .bind .properties fun found => .bind (.openAnchor _) fun _ => .bind .peek fun token => ?_
      split
      · exact .bind .take fun _ => .closeAnchor _ _
      · exact .bind .take fun _ => .bind (flowItems fuel true) fun _ => .closeAnchor _ _
      · refine .bind .take fun _ => .bind .newNumber fun _ => ?_
        exact .bind (flowEntries fuel true) fun _ => .closeAnchor _ _
      · refine .ite (.bind (indentlessItems fuel) fun _ => .closeAnchor _ _) (.ite ?_ (.ite ?_ ?_))
        · exact .bind .take fun _ => .bind (blockItems fuel) fun _ => .closeAnchor _ _
        · refine .bind .take fun _ => .bind .newNumber fun _ => ?_
          exact .bind (blockEntries fuel) fun _ => .closeAnchor _ _
        · exact .ite (.closeAnchor _ _) .refuse

theorem nodeUnless : ∀ fuel place ends, OnlyRefuses (nodeUnless fuel place ends)
  | 0, _, _ => .refuse
  | fuel + 1, place, ends => .bind (.isAt ends) fun _ => .ite .pure (node fuel place)

theorem blockItems : ∀ fuel, OnlyRefuses (blockItems fuel)
  | 0 => .refuse
  | fuel + 1 => by
    refine .bind (.takes _) fun _ => .ite ?_ (.bind (.takes _) fun _ => .ite .pure .refuse)
    exact .bind (nodeUnless fuel _ _) fun _ => .bind (blockItems fuel) fun _ => .pure

theorem indentlessItems : ∀ fuel, OnlyRefuses (indentlessItems fuel)
  | 0 => .refuse
  | fuel + 1 => by
    refine .bind (.takes _) fun _ => .ite ?_ .pure
    exact .bind (nodeUnless fuel _ _) fun _ => .bind (indentlessItems fuel) fun _ => .pure

theorem blockEntries : ∀ fuel, OnlyRefuses (blockEntries fuel)
  | 0 => .refuse
  | fuel + 1 => by
    refine .bind (.takes _) fun _ => .ite ?_ (.bind (.takes _) fun _ => .ite .pure .refuse)
    refine .bind (nodeUnless fuel _ _) fun _ => .bind (blockValue fuel) fun _ => ?_
    exact .bind (blockEntries fuel) fun _ => .pure

theorem blockValue : ∀ fuel, OnlyRefuses (blockValue fuel)
  | 0 => .refuse
  | fuel + 1 => .bind (.takes _) fun _ => .ite (nodeUnless fuel _ _) .pure

theorem flowItems : ∀ fuel isFirst, OnlyRefuses (flowItems fuel isFirst)
  | 0, _ => .refuse
  | fuel + 1, isFirst => by
    refine .bind (.takes _) fun _ => .ite .pure (.bind (.goesOn _) fun _ => .ite ?_ .refuse)
    refine .bind (.takes _) fun _ => .ite ?_ (.bind (.takes _) fun _ => .ite .pure ?_)
    · refine .bind .newNumber fun _ => .bind (nodeUnless fuel _ _) fun _ => ?_
      exact .bind (flowValue fuel _) fun _ => .bind (flowItems fuel false) fun _ => .pure
    · exact .bind (node fuel _) fun _ => .bind (flowItems fuel false) fun _ => .pure

theorem flowEntries : ∀ fuel isFirst, OnlyRefuses (flowEntries fuel isFirst)
  | 0, _ => .refuse
  | fuel + 1, isFirst => by
    refine .bind (.takes _) fun _ => .ite .pure (.bind (.goesOn _) fun _ => .ite ?_ .refuse)
    refine .bind (.takes _) fun _ => .ite ?_ (.bind (.takes _) fun _ => .ite .pure ?_)
    · refine .bind (nodeUnless fuel _ _) fun _ => .bind (flowValue fuel _) fun _ => ?_
      exact .bind (flowEntries fuel false) fun _ => .pure
    · exact .bind (node fuel _) fun _ => .bind (flowEntries fuel false) fun _ => .pure

theorem flowValue : ∀ fuel ending, OnlyRefuses (flowValue fuel ending)
  | 0, _ => .refuse
  | fuel + 1, _ => .bind (.takes _) fun _ => .ite (nodeUnless fuel _ _) .pure

end

/-! ## Documents -/

theorem directives (fuel : Nat) (versioned : Bool) (handles : List (Text × Text)) :
    OnlyRefuses (directives fuel versioned handles) := by
  induction fuel generalizing versioned handles with
  | zero => exact .refuse
  | succ fuel ih =>
    refine .bind .peek fun token => ?_
    split
    · exact .bind .take fun _ => .ite .refuse (ih _ _)
    · exact .bind .take fun _ => .ite .refuse (ih _ _)
    · exact .bind .take fun _ => ih _ _
    · exact .pure

theorem documentEnds (fuel : Nat) : OnlyRefuses (documentEnds fuel) := by
  induction fuel with
  | zero => exact .refuse
  | succ fuel ih => exact .bind (.takes _) fun _ => .ite ih .pure

theorem explicitDocument (fuel : Nat) : OnlyRefuses (explicitDocument fuel) := by
  refine .bind (.documentEnds _) fun _ => .bind .peek fun token => .ite .pure ?_
  refine .bind (.directives _ _ _) fun handles => .bind .modify fun _ => ?_
  refine .bind (.takes _) fun _ => .ite (.bind .peek fun next => ?_) .refuse
  split
  · exact .pure
  · exact .pure
  · exact .pure
  · exact .pure
  · exact .map (.node _ _)

theorem document (fuel : Nat) : OnlyRefuses (document fuel) := by
  refine .bind .peek fun token => ?_
  -- whatever the document was, the end of the stream has to follow
  have hend : ∀ root : Option Node, OnlyRefuses (do
      Reader.documentEnds fuel
      if (← Reader.peek) = .streamEnd then Pure.pure root else Reader.refuse) :=
    fun root => .bind (.documentEnds _) fun _ => .bind .peek fun _ => .ite .pure .refuse
  dsimp only
  split
  · exact .bind (.explicitDocument _) hend
  · exact .bind (.explicitDocument _) hend
  · exact .bind .pure hend
  · exact .bind (.map (.node _ _)) hend

end OnlyRefuses

end Reader

/-- What is wrong with tokens that give no document is their form. -/
theorem Node.faults_ofTokens? (tokens : List Token) :
    FaultsOnly (· = .malformed) (Node.ofTokens? tokens) :=
  .bind (Reader.OnlyRefuses.document _ _) fun _ => .ok

end DocGraph.Yaml
