import DocGraph.Yaml.Node

/-!
# Faults of reading

Every step from a text to its nodes can fail, and each in its own way. What is wrong with a text is
nearly always its form. Only two places of it hold numbers that are read at once: the code of a
character that is escaped, and the version that a directive tells. A number there can be out of
range, and that is the one other fault of scanning. Tokens that fit no document are a matter of
form again.

`FaultsOnly` is said of a result, and it is proved of a compound reader from its parts, with one
lemma for each reader.
-/

namespace DocGraph.Yaml

variable {α β : Type} {allowed : Fault → Prop}

/-- Only faults that are allowed end a result. -/
def FaultsOnly (allowed : Fault → Prop) (result : Except Fault α) : Prop :=
  ∀ fault, result = .error fault → allowed fault

/-- The faults of scanning. -/
def Fault.OfScan (fault : Fault) : Prop := fault = .malformed ∨ fault = .valueOutOfRange

namespace FaultsOnly

theorem ok {a : α} : FaultsOnly allowed (.ok a) := fun _ h => by cases h

theorem error {fault : Fault} (h : allowed fault) :
    FaultsOnly allowed (.error fault : Except Fault α) := fun _ hfault => by
  cases hfault
  exact h

theorem malformed : FaultsOnly Fault.OfScan (.error .malformed : Except Fault α) := error (.inl rfl)

/-- What follows a result may rely on what the result was. -/
theorem bind_of_ok {first : Except Fault α} {next : α → Except Fault β}
    (hfirst : FaultsOnly allowed first) (hnext : ∀ a, first = .ok a → FaultsOnly allowed (next a)) :
    FaultsOnly allowed (first >>= next) := by
  intro fault h
  cases first with
  | error found => exact hfirst fault (by simpa [Bind.bind, Except.bind] using h)
  | ok a => exact hnext a rfl fault h

theorem bind {first : Except Fault α} {next : α → Except Fault β} (hfirst : FaultsOnly allowed first)
    (hnext : ∀ a, FaultsOnly allowed (next a)) : FaultsOnly allowed (first >>= next) :=
  bind_of_ok hfirst fun a _ => hnext a

theorem map {result : Except Fault α} (f : α → β) (h : FaultsOnly allowed result) :
    FaultsOnly allowed (result.map f) := by
  intro fault hfault
  cases result with
  | error found => exact h fault (by simpa [Except.map] using hfault)
  | ok a => cases hfault

theorem ite {c : Prop} [Decidable c] {first second : Except Fault α}
    (hfirst : FaultsOnly allowed first) (hsecond : FaultsOnly allowed second) :
    FaultsOnly allowed (if c then first else second) := by
  split
  · exact hfirst
  · exact hsecond

theorem mapM {f : α → Except Fault β} {items : List α} (h : ∀ a ∈ items, FaultsOnly allowed (f a)) :
    FaultsOnly allowed (items.mapM f) := by
  induction items with
  | nil => exact ok
  | cons a rest ih =>
    rw [List.mapM_cons]
    refine bind (h a List.mem_cons_self) fun first => ?_
    exact bind (ih fun b hb => h b (List.mem_cons_of_mem _ hb)) fun more => ok

end FaultsOnly

/-! ## Scalars -/

theorem faults_quotedBreaks (steps : Nat) (cursor : Cursor) :
    FaultsOnly Fault.OfScan (quotedBreaks steps cursor) := by
  induction steps generalizing cursor with
  | zero => exact .ok
  | succ steps ih =>
    rw [quotedBreaks]
    refine .ite .malformed ?_
    dsimp only
    split
    · exact .bind (ih _) fun _ => .ok
    · exact .ok

theorem faults_codePoint (digits : Text) : FaultsOnly Fault.OfScan (codePoint digits) := by
  unfold codePoint
  split
  · exact .malformed
  · exact .ite .ok (.error (.inr rfl))

theorem faults_readEscape (cursor : Cursor) : FaultsOnly Fault.OfScan (readEscape cursor) := by
  unfold readEscape
  dsimp only
  split
  · exact .ok
  · split
    · exact .ite .malformed (.bind (faults_codePoint _) fun _ => .ok)
    · exact .ite (faults_quotedBreaks _ _) .malformed

theorem faults_quotedBlanks (cursor : Cursor) : FaultsOnly Fault.OfScan (quotedBlanks cursor) := by
  unfold quotedBlanks
  dsimp only
  refine .ite .malformed ?_
  split
  · exact .bind (faults_quotedBreaks _ _) fun _ => .ok
  · exact .ok

theorem faults_quotedRest (quote : Char) (steps : Nat) (cursor : Cursor) :
    FaultsOnly Fault.OfScan (quotedRest quote steps cursor) := by
  induction steps generalizing cursor with
  | zero => exact .malformed
  | succ steps ih =>
    rw [quotedRest]
    refine .ite .malformed (.ite ?_ (.ite .ok (.ite ?_ (.ite ?_ ?_))))
    · exact .bind (ih _) fun _ => .ok
    · exact .bind (faults_readEscape _) fun _ => .bind (ih _) fun _ => .ok
    · exact .bind (faults_quotedBlanks _) fun _ => .bind (ih _) fun _ => .ok
    · exact .bind (ih _) fun _ => .ok

theorem faults_readQuoted (cursor : Cursor) : FaultsOnly Fault.OfScan (readQuoted cursor) :=
  faults_quotedRest _ _ _

theorem faults_blockIndent? (cursor : Cursor) : FaultsOnly Fault.OfScan (blockIndent? cursor) := by
  unfold blockIndent?
  split
  · exact .malformed
  · exact .ok
  · exact .ok

theorem faults_blockSigns (cursor : Cursor) : FaultsOnly Fault.OfScan (blockSigns cursor) := by
  unfold blockSigns
  split
  · exact .bind (faults_blockIndent? _) fun _ => .ok
  · refine .bind (faults_blockIndent? _) fun found => ?_
    dsimp only
    split <;> exact .ok

theorem faults_readBlock (folded : Bool) (indent : Int) (cursor : Cursor) :
    FaultsOnly Fault.OfScan (readBlock folded indent cursor) := by
  refine .bind (faults_blockSigns _) fun found => ?_
  exact .ite .malformed (.ite .malformed (.ite .ok .ok))

/-! ## Tokens -/

namespace Scan

theorem faults_dropStale (scan : Scan) : FaultsOnly Fault.OfScan scan.dropStale := .ite .malformed .ok

theorem faults_dropKey (scan : Scan) : FaultsOnly Fault.OfScan scan.dropKey := .ite .malformed .ok

theorem faults_saveKey (scan : Scan) : FaultsOnly Fault.OfScan scan.saveKey :=
  .ite (.bind (faults_dropKey _) fun _ => .ok) .ok

theorem faults_readDigits (cursor : Cursor) : FaultsOnly Fault.OfScan (readDigits cursor) := by
  unfold readDigits
  split
  · exact .malformed
  · exact .ok

theorem faults_readEscapedBytes (steps : Nat) (cursor : Cursor) :
    FaultsOnly Fault.OfScan (readEscapedBytes steps cursor) := by
  induction steps generalizing cursor with
  | zero => exact .ok
  | succ steps ih =>
    rw [readEscapedBytes]
    refine .ite ?_ .ok
    split
    · exact .bind (ih _) fun _ => .ok
    · exact .malformed

theorem faults_tagText (steps : Nat) (cursor : Cursor) :
    FaultsOnly Fault.OfScan (tagText steps cursor) := by
  induction steps generalizing cursor with
  | zero => exact .ok
  | succ steps ih =>
    rw [tagText]
    refine .ite (.bind (faults_readEscapedBytes _ _) fun found => ?_) (.ite ?_ .ok)
    · dsimp only
      split
      · exact .bind (ih _) fun _ => .ok
      · exact .malformed
    · exact .bind (ih _) fun _ => .ok

theorem faults_readTagText (cursor : Cursor) : FaultsOnly Fault.OfScan (readTagText cursor) :=
  .bind (faults_tagText _ _) fun _ => .ite .malformed .ok

theorem faults_readHandle (cursor : Cursor) : FaultsOnly Fault.OfScan (readHandle cursor) :=
  .ite .malformed (.ite .ok (.ite .ok .malformed))

theorem faults_readVersion (cursor : Cursor) : FaultsOnly Fault.OfScan (readVersion cursor) := by
  refine .bind (faults_readDigits _) fun major => .ite .malformed ?_
  refine .bind (faults_readDigits _) fun minor => .ite .malformed ?_
  exact .ite (.error (.inr rfl)) .ok

theorem faults_readTagHandle (cursor : Cursor) : FaultsOnly Fault.OfScan (readTagHandle cursor) := by
  refine .bind (faults_readHandle _) fun handle => .ite .malformed ?_
  exact .bind (faults_readTagText _) fun start => .ite .malformed .ok

theorem faults_directiveContent (name : Text) (cursor : Cursor) :
    FaultsOnly Fault.OfScan (directiveContent name cursor) :=
  .ite (faults_readVersion _) (.ite (faults_readTagHandle _) .ok)

theorem faults_readDirective (cursor : Cursor) : FaultsOnly Fault.OfScan (readDirective cursor) :=
  .ite .malformed (.bind (faults_directiveContent _ _) fun _ => .ite .malformed .ok)

theorem faults_readName (cursor : Cursor) : FaultsOnly Fault.OfScan (readName cursor) :=
  .ite .malformed .ok

theorem faults_readTag (cursor : Cursor) : FaultsOnly Fault.OfScan (readTag cursor) := by
  -- every way to write a tag goes on with the same look at what stands behind it
  have hend : ∀ found : TagUse × Cursor, FaultsOnly Fault.OfScan
      (if isSpaceOrEnd found.2.peek then pure (found.1, found.2) else .error .malformed) :=
    fun _ => .ite .ok .malformed
  refine .ite ?_ (.ite (.bind .ok hend) (.ite ?_ ?_))
  · refine .bind (faults_readTagText _) fun suffix => ?_
    exact .ite (.bind .ok hend) (.bind .malformed hend)
  · refine .bind (faults_readHandle _) fun handle => ?_
    exact .bind (faults_readTagText _) fun suffix => .bind .ok hend
  · exact .bind (faults_readTagText _) fun suffix => .bind .ok hend

section Fetching

variable (scan : Scan)

theorem faults_fetchMarker (token : Token) : FaultsOnly Fault.OfScan (scan.fetchMarker token) :=
  .bind (faults_dropKey _) fun _ => .ok

theorem faults_fetchDirective : FaultsOnly Fault.OfScan scan.fetchDirective :=
  .bind (faults_dropKey _) fun _ => .bind (faults_readDirective _) fun _ => .ok

theorem faults_fetchEnd : FaultsOnly Fault.OfScan scan.fetchEnd :=
  .bind (faults_dropKey _) fun _ => .ok

theorem faults_fetchFlowStart (token : Token) : FaultsOnly Fault.OfScan (scan.fetchFlowStart token) :=
  .bind (faults_saveKey _) fun _ => .ok

theorem faults_fetchFlowEnd (token : Token) : FaultsOnly Fault.OfScan (scan.fetchFlowEnd token) :=
  .bind (faults_dropKey _) fun _ => .ok

theorem faults_fetchFlowEntry : FaultsOnly Fault.OfScan scan.fetchFlowEntry :=
  .bind (faults_dropKey _) fun _ => .ok

theorem faults_fetchBlockEntry : FaultsOnly Fault.OfScan scan.fetchBlockEntry :=
  .ite .malformed (.bind (faults_dropKey _) fun _ => .ok)

theorem faults_fetchKey : FaultsOnly Fault.OfScan scan.fetchKey :=
  .ite .malformed (.bind (faults_dropKey _) fun _ => .ok)

theorem faults_fetchValue : FaultsOnly Fault.OfScan scan.fetchValue := by
  unfold fetchValue
  split
  · exact .ok
  · exact .ite .malformed .ok

theorem faults_fetchNamed {read : Cursor → Except Fault (Token × Cursor)}
    (h : ∀ cursor, FaultsOnly Fault.OfScan (read cursor)) :
    FaultsOnly Fault.OfScan (scan.fetchNamed read) :=
  .bind (faults_saveKey _) fun _ => .bind (h _) fun _ => .ok

theorem faults_fetchBlockScalar (folded : Bool) :
    FaultsOnly Fault.OfScan (scan.fetchBlockScalar folded) :=
  .bind (faults_dropKey _) fun _ => .bind (faults_readBlock _ _ _) fun _ => .ok

theorem faults_fetchPlain : FaultsOnly Fault.OfScan scan.fetchPlain :=
  .bind (faults_saveKey _) fun _ => .ok

theorem faults_fetch : FaultsOnly Fault.OfScan scan.fetch := by
  -- one case for each mark that a token can begin with, in the order of `fetch`
  refine .ite scan.faults_fetchEnd (.ite scan.faults_fetchDirective ?_)
  refine .ite (scan.faults_fetchMarker _) (.ite (scan.faults_fetchMarker _) ?_)
  refine .ite (scan.faults_fetchFlowStart _) (.ite (scan.faults_fetchFlowStart _) ?_)
  refine .ite (scan.faults_fetchFlowEnd _) (.ite (scan.faults_fetchFlowEnd _) ?_)
  refine .ite scan.faults_fetchFlowEntry (.ite scan.faults_fetchBlockEntry ?_)
  refine .ite scan.faults_fetchKey (.ite scan.faults_fetchValue ?_)
  refine .ite (scan.faults_fetchNamed fun _ => .map _ (faults_readName _)) ?_
  refine .ite (scan.faults_fetchNamed fun _ => .map _ (faults_readName _)) ?_
  refine .ite (scan.faults_fetchNamed fun _ => .map _ (faults_readTag _)) ?_
  refine .ite (scan.faults_fetchBlockScalar _) (.ite (scan.faults_fetchBlockScalar _) ?_)
  refine .ite (scan.faults_fetchNamed fun _ => .map _ (faults_readQuoted _)) ?_
  exact .ite scan.faults_fetchPlain .malformed

end Fetching

theorem faults_run (steps : Nat) (scan : Scan) : FaultsOnly Fault.OfScan (run steps scan) := by
  induction steps generalizing scan with
  | zero => exact .ok
  | succ steps ih =>
    refine .bind (faults_dropStale _) fun fresh => ?_
    exact .bind (faults_fetch _) fun next => .ite .ok (ih _)

end Scan

/-- What is wrong with the tokens of a text is their form, or a number that is out of range. -/
theorem Token.faults_ofText (t : Text) : FaultsOnly Fault.OfScan (Token.ofText t) :=
  .ite (.map _ (Scan.faults_run _ _)) .malformed

end DocGraph.Yaml
