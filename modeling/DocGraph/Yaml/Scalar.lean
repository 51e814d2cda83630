import DocGraph.Number.Binary64
import DocGraph.Text.Utf8
import DocGraph.Yaml.Cursor

/-!
# Scalars as they are written

A scalar is written plainly, between quotes or as a block. Each style has its own rule for what a
line break inside it stands for: a single break is a space, unless the style or the next line says
otherwise, and further breaks are kept.

Every reader takes the cursor at the start of the scalar and gives its text and the cursor behind
it. Loops run for as many steps as there are characters left.
-/

namespace DocGraph.Yaml

/-- How a single break and the breaks behind it are folded. -/
def foldBreaks (first : Char) (more : Text) : Text :=
  if first ≠ '\n' then first :: more else if more.isEmpty then [' '] else more

/-! ## Quoted scalars -/

/-- The digits of an escape that gives a code point. -/
def escapeWidth? (c : Char) : Option Nat :=
  if c = 'x' then some 2 else if c = 'u' then some 4 else if c = 'U' then some 8 else none

/-- The character that a short escape stands for. -/
def shortEscape? (c : Char) : Option Char :=
  let table : List (Char × Nat) :=
    [('0', 0), ('a', 7), ('b', 8), ('t', 9), ('\t', 9), ('n', 10), ('v', 11), ('f', 12), ('r', 13),
      ('e', 0x1B), (' ', 0x20), ('"', 0x22), ('\\', 0x5C), ('/', 0x2F), ('N', 0x85), ('_', 0xA0),
      ('L', 0x2028), ('P', 0x2029)]
  (table.find? (·.1 = c)).map fun entry => Char.ofNat entry.2

/-- The value of a digit in base 16. -/
def hexDigit? (c : Char) : Option Nat :=
  if c.isDigit then some (c.toNat - '0'.toNat)
  else if 'a' ≤ c ∧ c ≤ 'f' then some (c.toNat - 'a'.toNat + 10)
  else if 'A' ≤ c ∧ c ≤ 'F' then some (c.toNat - 'A'.toNat + 10)
  else none

/-- The character with a code point given in base 16. -/
def codePoint (digits : Text) : Except Fault Char :=
  match digits.mapM hexDigit? with
  | none => .error .malformed
  | some values =>
    let code := Text.ofDigits 16 values
    if code < 0x110000 then .ok (Char.ofNat code) else .error .valueOutOfRange

/-- The breaks between the lines of a quoted scalar, with the blanks around them dropped. -/
def quotedBreaks : Nat → Cursor → Except Fault (Text × Cursor)
  | 0, cursor => .ok ([], cursor)
  | steps + 1, cursor =>
    if cursor.isAtSeparator then .error .malformed
    else
      let cursor := cursor.skipWhile fun c => c = ' ' || c = '\t'
      match cursor.lineBreak? with
      | some (c, cursor) => do
        let (more, cursor) ← quotedBreaks steps cursor
        pure (c :: more, cursor)
      | none => .ok ([], cursor)

/-- What follows a backslash in a scalar between double quotes. -/
def readEscape (cursor : Cursor) : Except Fault (Text × Cursor) :=
  let c := cursor.peek
  match shortEscape? c with
  | some meant => .ok ([meant], cursor.next)
  | none =>
    match escapeWidth? c with
    | some width => do
      let digits := cursor.next.rest.take width
      if digits.length < width then .error .malformed
      else
        let meant ← codePoint digits
        pure ([meant], cursor.next.skip width)
    | none =>
      if isBreak c then quotedBreaks (cursor.rest.length + 1) cursor.skipBreak
      else .error .malformed

/-- Blanks in a quoted scalar, folded if they hold a line break. -/
def quotedBlanks (cursor : Cursor) : Except Fault (Text × Cursor) := do
  let (blanks, cursor) := cursor.span fun c => c = ' ' || c = '\t'
  if cursor.rest.isEmpty then .error .malformed
  else
    match cursor.lineBreak? with
    | some (first, cursor) => do
      let (more, cursor) ← quotedBreaks (cursor.rest.length + 1) cursor
      pure (foldBreaks first more, cursor)
    | none => pure (blanks, cursor)

/-- The rest of a quoted scalar and the cursor behind the closing quote. -/
def quotedRest (quote : Char) : Nat → Cursor → Except Fault (Text × Cursor)
  | 0, _ => .error .malformed
  | steps + 1, cursor =>
    let c := cursor.peek
    let isDouble := quote = '"'
    if cursor.rest.isEmpty then .error .malformed
    -- two single quotes stand for one
    else if !isDouble && c = '\'' && cursor.peekAt 1 = '\'' then do
      let (more, cursor) ← quotedRest quote steps (cursor.skip 2)
      pure ('\'' :: more, cursor)
    else if c = quote then .ok ([], cursor.next)
    else if isDouble && c = '\\' then do
      let (meant, cursor) ← readEscape cursor.next
      let (more, cursor) ← quotedRest quote steps cursor
      pure (meant ++ more, cursor)
    else if isGap c then do
      let (blanks, cursor) ← quotedBlanks cursor
      let (more, cursor) ← quotedRest quote steps cursor
      pure (blanks ++ more, cursor)
    else do
      let (more, cursor) ← quotedRest quote steps cursor.next
      pure (c :: more, cursor)

/-- Reads a scalar between quotes. -/
def readQuoted (cursor : Cursor) : Except Fault (Text × Cursor) :=
  quotedRest cursor.peek (cursor.rest.length + 1) cursor.next

/-! ## Plain scalars -/

/-- The characters that structure a flow collection. -/
def isFlowMark (c : Char) : Bool := c ∈ [',', '[', ']', '\x7b', '\x7d']

def endsPlain (inFlow : Bool) (cursor : Cursor) : Bool :=
  let c := cursor.peek
  isGap c || (c = ':' && (isGap (cursor.peekAt 1) || (inFlow && isFlowMark (cursor.peekAt 1)))) ||
    (inFlow && (isFlowMark c || c = '?'))

/-- The characters up to where a plain scalar ends on its line. -/
def plainRun (inFlow : Bool) : Nat → Cursor → Text × Cursor
  | 0, cursor => ([], cursor)
  | steps + 1, cursor =>
    if endsPlain inFlow cursor then ([], cursor)
    else
      let (more, rest) := plainRun inFlow steps cursor.next
      (cursor.peek :: more, rest)

/-- Blanks inside a plain scalar: the text they stand for, whether a line ended, and the cursor. No
text means that the scalar ends here. -/
structure PlainGap where
  text : Option Text
  brokeLine : Bool
  cursor : Cursor

/-- The breaks after the first between the lines of a plain scalar, `none` if a document ends. -/
def plainBreaks : Nat → Cursor → Option Text × Cursor
  | 0, cursor => (some [], cursor)
  | steps + 1, cursor =>
    if cursor.peek = ' ' then plainBreaks steps cursor.next
    else
      match cursor.lineBreak? with
      | some (c, cursor) =>
        if cursor.isAtSeparator then (none, cursor)
        else
          let (more, cursor) := plainBreaks steps cursor
          (more.map (c :: ·), cursor)
      | none => (some [], cursor)

/-- Reads the blanks inside a plain scalar. -/
def plainGap (cursor : Cursor) : PlainGap :=
  let (spaces, cursor) := cursor.span (· = ' ')
  match cursor.lineBreak? with
  | some (first, cursor) =>
    if cursor.isAtSeparator then ⟨none, true, cursor⟩
    else
      let (more, cursor) := plainBreaks (cursor.rest.length + 1) cursor
      ⟨more.map (foldBreaks first), true, cursor⟩
  | none => ⟨if spaces.isEmpty then none else some spaces, false, cursor⟩

/-- A plain scalar and what its reader found out: whether the last thing read was a line break. -/
structure Plain where
  text : Text
  brokeLine : Bool
  cursor : Cursor

/-- Reads a plain scalar, given what stands between the text so far and the cursor. -/
def plainFrom (inFlow : Bool) (indent : Int) (gap : Text) : Nat → Cursor → Plain
  | 0, cursor => ⟨[], false, cursor⟩
  | steps + 1, cursor =>
    let (run, after) := plainRun inFlow (cursor.rest.length + 1) cursor
    -- behind a gap this sign begins a comment
    if cursor.peek = '#' || run.isEmpty then ⟨[], false, cursor⟩
    else
      let next := plainGap after
      match next.text with
      | none => ⟨gap ++ run, next.brokeLine, next.cursor⟩
      -- the blanks belong to the scalar only if it goes on behind them
      | some blanks =>
        if next.cursor.peek = '#' || (!inFlow && (next.cursor.column : Int) < indent) then
          ⟨gap ++ run, next.brokeLine, next.cursor⟩
        else
          let more := plainFrom inFlow indent blanks steps next.cursor
          ⟨gap ++ run ++ more.text, if more.text.isEmpty then next.brokeLine else more.brokeLine,
            more.cursor⟩

/-- Reads a plain scalar in a collection with some indentation. -/
def readPlain (inFlow : Bool) (indent : Int) (cursor : Cursor) : Plain :=
  plainFrom inFlow (indent + 1) [] (cursor.rest.length + 1) cursor

/-! ## Block scalars -/

/-- What happens to the line breaks at the end of a block scalar. -/
inductive Chomping
  | clip
  | strip
  | keep
deriving DecidableEq, Repr

/-- The chomping that a sign asks for. -/
def chomping? (c : Char) : Option Chomping :=
  if c = '+' then some .keep else if c = '-' then some .strip else none

/-- Reads an indentation, which is one digit but not zero. -/
def blockIndent? (cursor : Cursor) : Except Fault (Option Nat × Cursor) :=
  match asciiDigit? cursor.peek with
  | some 0 => .error .malformed
  | some digit => .ok (some digit, cursor.next)
  | none => .ok (none, cursor)

/-- Reads the signs behind the mark of a block scalar: chomping and indentation in either order. -/
def blockSigns (cursor : Cursor) : Except Fault (Chomping × Option Nat × Cursor) := do
  match chomping? cursor.peek with
  | some chomping =>
    let (indent, cursor) ← blockIndent? cursor.next
    pure (chomping, indent, cursor)
  | none =>
    let (indent, cursor) ← blockIndent? cursor
    match indent, chomping? cursor.peek with
    | some _, some chomping => pure (chomping, indent, cursor.next)
    | _, _ => pure (.clip, indent, cursor)

/-- The breaks before the first line of a block scalar and the greatest column that spaces reach. -/
def blockLead : Nat → Nat → Cursor → Text × Nat × Cursor
  | 0, widest, cursor => ([], widest, cursor)
  | steps + 1, widest, cursor =>
    if cursor.peek = ' ' then blockLead steps (max widest cursor.next.column) cursor.next
    else
      match cursor.lineBreak? with
      | some (c, cursor) =>
        let (more, widest, cursor) := blockLead steps widest cursor
        (c :: more, widest, cursor)
      | none => ([], widest, cursor)

/-- The cursor behind the indentation of a line. -/
def skipIndent (indent : Nat) (cursor : Cursor) : Cursor :=
  cursor.skip ((cursor.rest.take (indent - cursor.column)).takeWhile (· = ' ')).length

/-- The breaks of the empty lines from a cursor on. -/
def blockBreaks (indent : Nat) : Nat → Cursor → Text × Cursor
  | 0, cursor => ([], cursor)
  | steps + 1, cursor =>
    let cursor := skipIndent indent cursor
    match cursor.lineBreak? with
    | some (c, cursor) =>
      let (more, cursor) := blockBreaks indent steps cursor
      (c :: more, cursor)
    | none => ([], cursor)

/-- Whether a character is a space or a tab. -/
def isInlineBlank (c : Char) : Bool := c = ' ' || c = '\t'

/-- What joins two lines of a block scalar, given the break between them and those of the empty
lines that follow. -/
def blockJoint (folded : Bool) (current next : Char) (first : Text) (more : Text) : Text :=
  -- lines that are indented further keep the breaks around them
  if folded && first = ['\n'] && !isInlineBlank current && !isInlineBlank next then
    (if more.isEmpty then [' '] else []) ++ more
  else first ++ more

/-- Reads the lines of a block scalar. -/
def blockLines (folded : Bool) (chomping : Chomping) (indent : Nat) :
    Nat → Cursor → Text × Cursor
  | 0, cursor => ([], cursor)
  | steps + 1, cursor =>
    let (line, after) := cursor.span (!isBreakOrEnd ·)
    let first := (after.lineBreak?.map fun found => [found.1]).getD []
    let (more, next) := blockBreaks indent (after.rest.length + 1) after.skipBreak
    -- a line that is indented less ends the scalar
    if next.column = indent && !next.rest.isEmpty then
      let (others, rest) := blockLines folded chomping indent steps next
      (line ++ blockJoint folded cursor.peek next.peek first more ++ others, rest)
    else
      let tail :=
        match chomping with
        | .clip => first
        | .strip => []
        | .keep => first ++ more
      (line ++ tail, next)

/-- Reads a block scalar in a collection with some indentation. -/
def readBlock (folded : Bool) (indent : Int) (cursor : Cursor) : Except Fault (Text × Cursor) := do
  let (chomping, increment, cursor) ← blockSigns cursor.next
  if !isSpaceOrEnd cursor.peek then .error .malformed
  else
    let cursor := cursor.skipComment
    if !isBreakOrEnd cursor.peek then .error .malformed
    else
      let cursor := cursor.skipBreak
      let least := max 1 (indent + 1).toNat
      let steps := cursor.rest.length + 1
      -- without a sign the leading spaces tell the indentation, those of empty lines included
      let (width, lead, cursor) :=
        match increment with
        | none =>
          let (lead, widest, cursor) := blockLead steps 0 cursor
          (max least widest, lead, cursor)
        | some increment =>
          let width := least + increment - 1
          let (lead, cursor) := blockBreaks width steps cursor
          (width, lead, cursor)
      if cursor.column = width && !cursor.rest.isEmpty then
        let (lines, cursor) := blockLines folded chomping width steps cursor
        pure (lead ++ lines, cursor)
      else pure (if chomping = .keep then lead else [], cursor)

end DocGraph.Yaml
