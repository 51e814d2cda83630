import DocGraph.Yaml.Scalar

/-!
# Tokens

The tokens of a YAML text are its marks and scalars, and besides them the starts and ends of block
collections, which are read off the indentation, and the keys, which are often told only by the
colon behind them. Every place where such a key could have begun is remembered until its line ends,
and the key token is put there when the colon comes.

`Token.ofText` gives the tokens of a text, with one at the end that stands for the end.
-/

namespace DocGraph.Yaml

/-- A directive, as far as it means something. -/
inductive Directive
  | version (major : Text)
  | tagHandle (handle start : Text)
  | unknown
deriving DecidableEq, Repr

/-- A tag as it is written: a handle, unless it is spelled out, and the text behind it. -/
structure TagUse where
  handle : Option Text
  suffix : Text
deriving DecidableEq, Repr

/-- A token. -/
inductive Token
  | directive (d : Directive)
  | documentStart
  | documentEnd
  | sequenceStart
  | mappingStart
  | blockEnd
  | flowSequenceStart
  | flowMappingStart
  | flowSequenceEnd
  | flowMappingEnd
  | blockEntry
  | flowEntry
  | key
  | value
  | alias (name : Text)
  | anchor (name : Text)
  | tag (use : TagUse)
  | scalar (text : Text) (plain : Bool)
  | streamEnd
deriving DecidableEq, Repr

/-- A place where a key may have begun: the number of tokens before it, whether a key has to be
there, and its position. -/
structure PossibleKey where
  level : Nat
  tokensBefore : Nat
  required : Bool
  index : Nat
  line : Nat
  column : Nat
deriving DecidableEq, Repr

/-- The most characters that a key may have before its colon. -/
def maxKeyLength : Nat := 1024

/-- The state of reading tokens. The tokens so far stand in reverse. The indentation is -1 outside
all block collections, and those of the collections around are remembered. -/
structure Scan where
  cursor : Cursor
  tokens : List Token
  count : Nat
  flowLevel : Nat
  indent : Int
  indents : List Int
  keyAllowed : Bool
  possibleKeys : List PossibleKey
deriving Repr

namespace Scan

def start (t : Text) : Scan := ⟨Cursor.start t, [], 0, 0, -1, [], true, []⟩

def push (scan : Scan) (token : Token) : Scan :=
  { scan with tokens := token :: scan.tokens, count := scan.count + 1 }

/-- Puts a token behind the first `before` tokens. -/
def pushAt (scan : Scan) (before : Nat) (token : Token) : Scan :=
  -- the tokens stand in reverse, so the later ones come first
  let later := scan.count - before
  { scan with
    tokens := scan.tokens.take later ++ token :: scan.tokens.drop later
    count := scan.count + 1 }

/-- The state with another cursor. -/
def goTo (scan : Scan) (cursor : Cursor) : Scan := { scan with cursor := cursor }

/-- The state with keys allowed or not. -/
def allow (scan : Scan) (keyAllowed : Bool) : Scan := { scan with keyAllowed := keyAllowed }

/-- Whether the cursor is inside a flow collection. -/
def inFlow (scan : Scan) : Bool := scan.flowLevel ≠ 0

/-- Skips blanks, comments and line breaks. Outside flow collections a key may begin on a new line.
-/
def skipToToken : Nat → Scan → Scan
  | 0, scan => scan
  | steps + 1, scan =>
    let cursor := scan.cursor.skipComment
    match cursor.lineBreak? with
    | some (_, cursor) =>
      skipToToken steps ((scan.goTo cursor).allow (scan.keyAllowed || !scan.inFlow))
    | none => scan.goTo cursor

/-- Forgets the possible keys that are too far back. One that had to be a key is a fault. -/
def dropStale (scan : Scan) : Except Fault Scan :=
  let isFresh := fun key : PossibleKey =>
    key.line = scan.cursor.line && scan.cursor.index - key.index ≤ maxKeyLength
  if scan.possibleKeys.any fun key => !isFresh key && key.required then .error .malformed
  else .ok { scan with possibleKeys := scan.possibleKeys.filter isFresh }

/-- Forgets the possible key at the current level. One that had to be a key is a fault. -/
def dropKey (scan : Scan) : Except Fault Scan :=
  if scan.possibleKeys.any fun key => key.level = scan.flowLevel && key.required then
    .error .malformed
  else
    .ok { scan with possibleKeys := scan.possibleKeys.filter (·.level ≠ scan.flowLevel) }

/-- Remembers that a key may begin at the cursor. -/
def saveKey (scan : Scan) : Except Fault Scan :=
  if scan.keyAllowed then do
    let cursor := scan.cursor
    let scan ← scan.dropKey
    -- at the indentation of its collection nothing but a key can stand
    let required := !scan.inFlow && scan.indent = cursor.column
    let key : PossibleKey :=
      ⟨scan.flowLevel, scan.count, required, cursor.index, cursor.line, cursor.column⟩
    pure { scan with possibleKeys := key :: scan.possibleKeys }
  else .ok scan

/-- Ends the block collections that are indented further than a column. -/
def unwindFrom (column : Int) : List Int → Scan → Scan
  | indents, scan =>
    if scan.indent ≤ column then { scan with indents := indents }
    else
      match indents with
      | [] => { scan with indents := [] }
      | outer :: rest => unwindFrom column rest ({ scan with indent := outer }.push .blockEnd)

/-- Ends the block collections that are indented further than a column. Indentation means nothing in
a flow collection. -/
def unwind (scan : Scan) (column : Int) : Scan :=
  if scan.inFlow then scan else unwindFrom column scan.indents scan

/-- Whether a block collection starts at a column, being indented further than those around it. -/
def deepens (scan : Scan) (column : Nat) : Bool := scan.indent < column

/-- Remembers the indentation and takes a column as the new one. -/
def indentTo (scan : Scan) (column : Nat) : Scan :=
  { scan with indents := scan.indent :: scan.indents, indent := column }

/-! ## Directives -/

/-- The digits at the cursor, at least one. -/
def readDigits (cursor : Cursor) : Except Fault (Text × Cursor) :=
  match cursor.span isAsciiDigit with
  | ([], _) => .error .malformed
  | found => .ok found

def readEscapedBytes : Nat → Cursor → Except Fault (Bytes × Cursor)
  | 0, cursor => .ok ([], cursor)
  | steps + 1, cursor =>
    if cursor.peek = '%' then
      match hexDigit? (cursor.peekAt 1), hexDigit? (cursor.peekAt 2) with
      | some high, some low => do
        let (more, cursor) ← readEscapedBytes steps (cursor.skip 3)
        pure (UInt8.ofNat (high * 16 + low) :: more, cursor)
      | _, _ => .error .malformed
    else .ok ([], cursor)

/-- The characters of a tag, apart from letters and digits. -/
def tagChars : List Char :=
  ['-', ';', '/', '?', ':', '@', '&', '=', '+', '$', ',', '_', '.', '!', '~', '*', '\'', '(', ')', '[',
    ']', '%']

/-- The rest of a tag, its escapes decoded. -/
def tagText : Nat → Cursor → Except Fault (Text × Cursor)
  | 0, cursor => .ok ([], cursor)
  | steps + 1, cursor =>
    let c := cursor.peek
    if c = '%' then do
      let (bytes, cursor) ← readEscapedBytes (cursor.rest.length + 1) cursor
      match Utf8.decode? bytes with
      | some t => do
        let (more, cursor) ← tagText steps cursor
        pure (t ++ more, cursor)
      | none => .error .malformed
    else if c.isAlphanum || tagChars.elem c then do
      let (more, cursor) ← tagText steps cursor.next
      pure (c :: more, cursor)
    else .ok ([], cursor)

/-- The text of a tag, which must not be missing. -/
def readTagText (cursor : Cursor) : Except Fault (Text × Cursor) := do
  let (t, after) ← tagText (cursor.rest.length + 1) cursor
  if after.index = cursor.index then .error .malformed else pure (t, after)

/-- The handle of a tag: an exclamation mark alone or two with a name between them. -/
def readHandle (cursor : Cursor) : Except Fault (Text × Cursor) :=
  if cursor.peek ≠ '!' then .error .malformed
  else if cursor.peekAt 1 = ' ' then .ok (['!'], cursor.next)
  else
    let (name, after) := cursor.next.span isNameChar
    if after.peek = '!' then .ok ('!' :: name ++ ['!'], after.next) else .error .malformed

def readVersion (cursor : Cursor) : Except Fault (Directive × Cursor) := do
  let (major, cursor) ← readDigits (cursor.skipWhile (· = ' '))
  if cursor.peek ≠ '.' then .error .malformed
  else
    let (minor, cursor) ← readDigits cursor.next
    if !isSpaceOrEnd cursor.peek then .error .malformed
    -- too many digits are no matter of form, but no number can be made of them
    else if maxDecimalDigits < major.length || maxDecimalDigits < minor.length then
      .error .valueOutOfRange
    else pure (.version major, cursor)

/-- The handle of a tag directive and what it stands for. -/
def readTagHandle (cursor : Cursor) : Except Fault (Directive × Cursor) := do
  let (handle, cursor) ← readHandle (cursor.skipWhile (· = ' '))
  if cursor.peek ≠ ' ' then .error .malformed
  else
    let (start, cursor) ← readTagText (cursor.skipWhile (· = ' '))
    if !isSpaceOrEnd cursor.peek then .error .malformed
    else pure (.tagHandle handle start, cursor)

def directiveContent (name : Text) (cursor : Cursor) : Except Fault (Directive × Cursor) :=
  if name = "YAML".toList then readVersion cursor
  else if name = "TAG".toList then readTagHandle cursor
  else .ok (.unknown, cursor.skipWhile (!isBreakOrEnd ·))

/-- Reads a directive and the rest of its line. -/
def readDirective (cursor : Cursor) : Except Fault (Directive × Cursor) := do
  let (name, cursor) := cursor.next.span isNameChar
  if name.isEmpty || !isSpaceOrEnd cursor.peek then .error .malformed
  else
    let (directive, cursor) ← directiveContent name cursor
    let cursor := cursor.skipComment
    if !isBreakOrEnd cursor.peek then .error .malformed else pure (directive, cursor.skipBreak)

/-! ## Marks with names -/

/-- The name of an anchor or an alias. -/
def readName (cursor : Cursor) : Except Fault (Text × Cursor) :=
  let (name, after) := cursor.next.span isNameChar
  let ends := isGap after.peek || ['?', ':', ',', ']', '\x7d', '%', '@', Char.ofNat 0x60].elem after.peek
  if name.isEmpty || !ends then .error .malformed else .ok (name, after)

/-- Whether a handle comes before the end of the word at the cursor. -/
def hasHandle (cursor : Cursor) : Bool :=
  (cursor.next.rest.takeWhile (!isSpaceOrEnd ·)).elem '!'

def readTag (cursor : Cursor) : Except Fault (TagUse × Cursor) := do
  let (use, cursor) ←
    if cursor.peekAt 1 = '<' then do
      let (suffix, cursor) ← readTagText (cursor.skip 2)
      if cursor.peek = '>' then pure (⟨none, suffix⟩, cursor.next) else .error .malformed
    else if isGap (cursor.peekAt 1) then pure ((⟨none, ['!']⟩ : TagUse), cursor.next)
    else if hasHandle cursor then do
      let (handle, cursor) ← readHandle cursor
      let (suffix, cursor) ← readTagText cursor
      pure (⟨some handle, suffix⟩, cursor)
    else do
      let (suffix, cursor) ← readTagText cursor.next
      pure (⟨some ['!'], suffix⟩, cursor)
  if isSpaceOrEnd cursor.peek then pure (use, cursor) else .error .malformed

/-! ## Reading one token -/

/-- A mark of some width that ends all block collections. -/
def fetchMarker (scan : Scan) (token : Token) : Except Fault Scan := do
  let scan ← (scan.unwind (-1)).dropKey
  pure (((scan.allow false).goTo (scan.cursor.skip 3)).push token)

def fetchDirective (scan : Scan) : Except Fault Scan := do
  let scan ← (scan.unwind (-1)).dropKey
  let (directive, cursor) ← readDirective scan.cursor
  pure (((scan.allow false).goTo cursor).push (.directive directive))

def fetchEnd (scan : Scan) : Except Fault Scan := do
  let scan ← (scan.unwind (-1)).dropKey
  pure (scan.push .streamEnd)

/-- The start of a flow collection, which may be a key. -/
def fetchFlowStart (scan : Scan) (token : Token) : Except Fault Scan := do
  let scan ← scan.saveKey
  let scan := { scan with flowLevel := scan.flowLevel + 1 }
  pure (((scan.allow true).goTo scan.cursor.next).push token)

def fetchFlowEnd (scan : Scan) (token : Token) : Except Fault Scan := do
  let scan ← scan.dropKey
  let scan := { scan with flowLevel := scan.flowLevel - 1 }
  pure (((scan.allow false).goTo scan.cursor.next).push token)

/-- A comma in a flow collection. -/
def fetchFlowEntry (scan : Scan) : Except Fault Scan := do
  let scan ← scan.dropKey
  pure (((scan.allow true).goTo scan.cursor.next).push .flowEntry)

/-- Starts a block collection at the cursor if it is indented further than those around it. -/
def startBlock (scan : Scan) (token : Token) : Scan :=
  if scan.deepens scan.cursor.column then (scan.indentTo scan.cursor.column).push token else scan

/-- The hyphen of a block sequence. -/
def fetchBlockEntry (scan : Scan) : Except Fault Scan := do
  if !scan.inFlow && !scan.keyAllowed then .error .malformed
  else
    let scan := if scan.inFlow then scan else scan.startBlock .sequenceStart
    let scan ← scan.dropKey
    pure (((scan.allow true).goTo scan.cursor.next).push .blockEntry)

/-- The question mark of a key. -/
def fetchKey (scan : Scan) : Except Fault Scan := do
  if !scan.inFlow && !scan.keyAllowed then .error .malformed
  else
    let scan := if scan.inFlow then scan else scan.startBlock .mappingStart
    let scan ← scan.dropKey
    pure (((scan.allow (!scan.inFlow)).goTo scan.cursor.next).push .key)

/-- The colon of a value, which tells that a possible key was one. -/
def fetchValue (scan : Scan) : Except Fault Scan :=
  match scan.possibleKeys.find? (·.level = scan.flowLevel) with
  | some key =>
    let scan := { scan with possibleKeys := scan.possibleKeys.filter (·.level ≠ scan.flowLevel) }
    let scan := scan.pushAt key.tokensBefore .key
    let scan :=
      -- the mapping starts before its first key, which was only now found to be one
      if !scan.inFlow && scan.deepens key.column then
        (scan.indentTo key.column).pushAt key.tokensBefore .mappingStart
      else scan
    .ok (((scan.allow false).goTo scan.cursor.next).push .value)
  | none =>
    -- a value whose key was left out
    if !scan.inFlow && !scan.keyAllowed then .error .malformed
    else
      let scan := if scan.inFlow then scan else scan.startBlock .mappingStart
      .ok (((scan.allow (!scan.inFlow)).goTo scan.cursor.next).push .value)

/-- A token that may be a key and is read by a reader of its own. -/
def fetchNamed (scan : Scan) (read : Cursor → Except Fault (Token × Cursor)) : Except Fault Scan := do
  let scan ← scan.saveKey
  let (token, cursor) ← read scan.cursor
  pure (((scan.allow false).goTo cursor).push token)

/-- A block scalar, after which a key may begin. -/
def fetchBlockScalar (scan : Scan) (folded : Bool) : Except Fault Scan := do
  let scan ← scan.dropKey
  let (t, cursor) ← readBlock folded scan.indent scan.cursor
  pure (((scan.allow true).goTo cursor).push (.scalar t false))

/-- A plain scalar. A key may begin behind it if it ended with its line. -/
def fetchPlain (scan : Scan) : Except Fault Scan := do
  let scan ← scan.saveKey
  let plain := readPlain scan.inFlow scan.indent scan.cursor
  pure (((scan.allow plain.brokeLine).goTo plain.cursor).push (.scalar plain.text true))

/-- Characters that cannot begin a plain scalar. -/
def indicators : List Char :=
  ['-', '?', ':', ',', '[', ']', '\x7b', '\x7d', '#', '&', '*', '!', '|', '>', '\'', '"', '%', '@',
    Char.ofNat 0x60]

/-- Whether a plain scalar begins at the cursor. -/
def isPlainStart (scan : Scan) : Bool :=
  let c := scan.cursor.peek
  (!isGap c && !indicators.elem c) ||
    (!isGap (scan.cursor.peekAt 1) && (c = '-' || (!scan.inFlow && (c = '?' || c = ':'))))

/-- Reads the token at the cursor. -/
def fetch (scan : Scan) : Except Fault Scan :=
  let cursor := scan.cursor
  let c := cursor.peek
  let beforeGap := isGap (cursor.peekAt 1)
  if cursor.rest.isEmpty then scan.fetchEnd
  else if c = '%' && cursor.column = 0 then scan.fetchDirective
  else if cursor.column = 0 && cursor.isAtMarker '-' then scan.fetchMarker .documentStart
  else if cursor.column = 0 && cursor.isAtMarker '.' then scan.fetchMarker .documentEnd
  else if c = '[' then scan.fetchFlowStart .flowSequenceStart
  else if c = '\x7b' then scan.fetchFlowStart .flowMappingStart
  else if c = ']' then scan.fetchFlowEnd .flowSequenceEnd
  else if c = '\x7d' then scan.fetchFlowEnd .flowMappingEnd
  else if c = ',' then scan.fetchFlowEntry
  -- without a gap behind them the next three marks may begin a plain scalar instead
  else if c = '-' && beforeGap then scan.fetchBlockEntry
  else if c = '?' && (scan.inFlow || beforeGap) then scan.fetchKey
  else if c = ':' && (scan.inFlow || beforeGap) then scan.fetchValue
  else if c = '*' then
    scan.fetchNamed fun cursor => (readName cursor).map fun (name, rest) => (.alias name, rest)
  else if c = '&' then
    scan.fetchNamed fun cursor => (readName cursor).map fun (name, rest) => (.anchor name, rest)
  else if c = '!' then
    scan.fetchNamed fun cursor => (readTag cursor).map fun (use, rest) => (.tag use, rest)
  else if c = '|' && !scan.inFlow then scan.fetchBlockScalar false
  else if c = '>' && !scan.inFlow then scan.fetchBlockScalar true
  else if c = '\'' || c = '"' then
    scan.fetchNamed fun cursor => (readQuoted cursor).map fun (t, rest) => (.scalar t false, rest)
  else if scan.isPlainStart then scan.fetchPlain
  else .error .malformed

/-- Reads tokens until the end. -/
def run : Nat → Scan → Except Fault Scan
  | 0, scan => .ok scan
  | steps + 1, scan => do
    let scan := skipToToken (scan.cursor.rest.length + 1) scan
    let scan ← scan.dropStale
    let scan := scan.unwind scan.cursor.column
    -- the end of the text is a token as well, so it is fetched before the run stops
    let ended := scan.cursor.rest.isEmpty
    let scan ← scan.fetch
    if ended then pure scan else run steps scan

end Scan

/-- Whether a text holds only characters that a YAML text may hold. -/
def isReadable (t : Text) : Bool := t.all (inTable allowedRanges)

/-- The text without a byte order mark in front. -/
def dropMark (t : Text) : Text := if t.head? = some byteOrderMark then t.drop 1 else t

/-- The tokens of a text. -/
def Token.ofText (t : Text) : Except Fault (List Token) :=
  if isReadable t then
    (Scan.run (t.length + 2) (Scan.start (dropMark t))).map fun scan => scan.tokens.reverse
  else .error .malformed

end DocGraph.Yaml
