import DocGraph.Yaml.Base64
import DocGraph.Yaml.Node
import DocGraph.Yaml.Value

/-!
# From nodes to values

The kind of a node says how its value is made. Only the kinds of YAML itself are known; any other
tag is a fault.

A merge key brings in the entries of another mapping, or of several, in front of those written out,
so that an entry written out wins over one brought in, and an earlier mapping over a later one.

`Value.load` gives the value of a text. A stream without a document has the value null.
-/

namespace DocGraph.Yaml

/-! ## Scalars -/

/-- What may stand in front of the digits of an integer in a base. -/
def baseMarks (base : Nat) : List Char :=
  if base = 2 then ['b', 'B'] else if base = 8 then ['o', 'O'] else ['x', 'X']

/-- Digits without the mark of a base. -/
def dropBaseMark (base : Nat) (t : Text) : Text :=
  match t with
  | '0' :: c :: rest => if (baseMarks base).elem c then rest else t
  | t => t

/-- An integer in a base, with blanks around it, a sign of its own and the mark of the base. -/
def integerIn (base : Nat) (t : Text) : Except Fault Int :=
  let (negative, marked) := splitSign (Text.trimNumber t)
  let digits := dropBaseMark base marked
  match digits.mapM fun c => (digitValue? c).or (hexDigit? c) with
  | some values =>
    if digits.isEmpty || values.any (base ≤ ·) then .error .valueOutOfRange
    else .ok (signed negative (Text.ofDigits base values))
  | none => .error .valueOutOfRange

/-- An integer as numbers are read everywhere: with blanks around it, any digits and underscores. -/
def freeInteger (t : Text) : Except Fault Int :=
  match readInteger? t with
  | some n => .ok n
  | none => .error .valueOutOfRange

/-- The value of groups of sixty, the last one counting ones. -/
def sixties (groups : List Int) : Int := groups.foldl (fun n group => n * 60 + group) 0

/-- The base that the start of an integer tells, and its digits. -/
def baseOf (t : Text) : Nat × Text :=
  match t with
  | '0' :: 'b' :: rest => (2, rest)
  | '0' :: 'x' :: rest => (16, rest)
  | '0' :: rest => (8, '0' :: rest)
  | t => (10, t)

/-- An integer without sign and underscores. -/
def readUnsignedInteger (t : Text) : Except Fault Int :=
  if t = ['0'] then .ok 0
  else
    match baseOf t with
    | (10, _) =>
      if t.isEmpty then .error .noDigits
      else if t.elem ':' then do
        let groups ← (Text.pieces (· = ':') t).mapM freeInteger
        pure (sixties groups)
      else freeInteger t
    | (base, digits) => integerIn base digits

def readIntegerScalar (t : Text) : Except Fault Value := do
  let bare := t.filter (· ≠ '_')
  if bare.isEmpty then .error .noDigits
  else
    -- the sign is taken off first, since the mark of a base stands behind it
    let n ← readUnsignedInteger (dropSign bare)
    pure (.integer (if bare.head? = some '-' then -n else n))

/-- A number as numbers are read everywhere. -/
def freeFloat (t : Text) : Except Fault Binary64 :=
  match Binary64.read? t with
  | some x => .ok x
  | none => .error .valueOutOfRange

/-- An integer as a number in double precision, unless it is too large for one. -/
def floatOf (n : Nat) : Except Fault Binary64 :=
  match Binary64.ofRatio false n 1 with
  | .infinite _ => .error .valueOutOfRange
  | x => .ok x

/-- The sum of groups of sixty, from the last one, which counts ones. -/
def floatSixties (sum : Binary64) (base : Nat) : List Binary64 → Except Fault Binary64
  | [] => .ok sum
  | group :: rest => do
    let place ← floatOf base
    floatSixties (sum.add (group.mul place)) (base * 60) rest

/-- A number with a point. -/
def readFloatScalar (t : Text) : Except Fault Value := do
  let bare := Text.lower (t.filter (· ≠ '_'))
  if bare.isEmpty then .error .noDigits
  else
    let unsigned := dropSign bare
    let negate := fun x : Binary64 => if bare.head? = some '-' then x.neg else x
    if unsigned = ".inf".toList then pure (.float (negate (.infinite false)))
    else if unsigned = ".nan".toList then pure (.float .nan)
    else if unsigned.elem ':' then do
      let groups ← (Text.pieces (· = ':') unsigned).mapM freeFloat
      let sum ← floatSixties (.finite false 0 0) 1 groups.reverse
      pure (.float (negate sum))
    else do
      let x ← freeFloat unsigned
      pure (.float (negate x))

def readBoolScalar (t : Text) : Except Fault Value :=
  let word := Text.lower t
  if (Text.ofStrings ["yes", "true", "on"]).elem word then .ok (.bool true)
  else if (Text.ofStrings ["no", "false", "off"]).elem word then .ok (.bool false)
  else .error .unknownWord

def readTimestampScalar (t : Text) : Except Fault Value :=
  match timestampParts? t with
  | none => .error .noTimestamp
  | some parts =>
    match Timestamp.ofParts? parts with
    | some timestamp => .ok (.timestamp timestamp)
    | none => .error .valueOutOfRange

/-- Bytes in base 64. -/
def readBinaryScalar (t : Text) : Except Fault Value :=
  if t.all (·.toNat < 0x80) then
    match decodeBase64? t with
    | some bytes => .ok (.bytes bytes)
    | none => .error .malformed
  else .error .malformed

def scalarValue (kind : Kind) (t : Text) : Except Fault Value :=
  match kind with
  | .null => .ok .null
  | .bool => readBoolScalar t
  | .int => readIntegerScalar t
  | .float => readFloatScalar t
  | .binary => readBinaryScalar t
  | .timestamp => readTimestampScalar t
  | .text => .ok (.text t)
  | _ => .error .malformed

/-! ## Collections -/

namespace Node

def kind : Node → Kind
  | scalar kind _ => kind
  | sequence kind _ => kind
  | mapping _ kind _ => kind

/-- Whether values of a kind are written as scalars. -/
def isScalarKind (kind : Kind) : Bool :=
  kind ∈ [.null, .bool, .int, .float, .binary, .timestamp, .text]

/-- Entries without merge keys, and the nodes that the merge keys bring in. The default key is an
ordinary key here. -/
def splitMerges : List (Node × Node) → List Node × List (Node × Node)
  | [] => ([], [])
  | (key, value) :: rest =>
    let (merges, own) := splitMerges rest
    match key.kind, key with
    -- all merge keys count, wherever they stand among the entries
    | .merge, _ => (value :: merges, own)
    | .value, .scalar _ t => (merges, (.scalar .text t, value) :: own)
    | _, _ => (merges, (key, value) :: own)

mutual

/-- The entries of a mapping with those that its merge keys bring in, in front. -/
def mergedEntries : Nat → List (Node × Node) → Except Fault (List (Node × Node))
  | 0, _ => .error .malformed
  | fuel + 1, entries => do
    let (merges, own) := splitMerges entries
    let brought ← broughtEntries fuel merges
    pure (brought ++ own)

/-- The entries that the values of merge keys bring in. -/
def broughtEntries : Nat → List Node → Except Fault (List (Node × Node))
  | 0, _ => .error .malformed
  | _ + 1, [] => .ok []
  | fuel + 1, value :: rest => do
    let first ←
      match value with
      | mapping _ _ entries => mergedEntries fuel entries
      | sequence _ items => listedEntries fuel items
      | scalar _ _ => .error .malformed
    let more ← broughtEntries fuel rest
    pure (first ++ more)

/-- The entries that a list of mappings brings in. The last mapping comes first, so that an earlier
one wins over it. -/
def listedEntries : Nat → List Node → Except Fault (List (Node × Node))
  | 0, _ => .error .malformed
  | _ + 1, [] => .ok []
  | fuel + 1, item :: rest => do
    let first ←
      match item with
      | mapping _ _ entries => mergedEntries fuel entries
      | _ => .error .malformed
    let more ← listedEntries fuel rest
    pure (more ++ first)

end

/-- The text of a node that should be a scalar. A mapping may give it under the default key. -/
def scalarText : Nat → Node → Except Fault Text
  | 0, _ => .error .malformed
  | _ + 1, scalar _ t => .ok t
  | _ + 1, sequence _ _ => .error .malformed
  | fuel + 1, mapping _ _ entries =>
    match entries.find? fun entry => entry.1.kind = .value with
    | some entry => scalarText fuel entry.2
    | none => .error .malformed

/-- The value of a node of a scalar kind with a text. A timestamp is no longer looked for in the
text that a mapping gives. -/
def valueOfText (node : Node) (t : Text) : Except Fault Value :=
  match node.kind, node with
  | .timestamp, mapping _ _ _ => .error .noTimestamp
  | kind, _ => scalarValue kind t

mutual

def value : Nat → Node → Except Fault Value
  | 0, _ => .error .malformed
  | fuel + 1, node =>
    if isScalarKind node.kind then do
      let t ← node.scalarText fuel
      node.valueOfText t
    else
      match node.kind, node with
      | .sequence, sequence _ items => do
        let values ← items.mapM (value fuel)
        pure (.list values)
      | .orderedMap, sequence _ items => do
        let pairs ← items.mapM (onlyPair fuel)
        pure (.list pairs)
      | .pairs, sequence _ items => do
        let pairs ← items.mapM (onlyPair fuel)
        pure (.list pairs)
      | .mapping, mapping number _ entries => do
        let values ← entryValues fuel entries
        pure (.mapping (some number) values)
      | .set, mapping _ _ entries => do
        let values ← entryValues fuel entries
        pure (.set (values.map (·.1)))
      | _, _ => .error .malformed

/-- The pair that a mapping of one entry gives. -/
def onlyPair : Nat → Node → Except Fault Value
  | 0, _ => .error .malformed
  | fuel + 1, node =>
    match node with
    | mapping _ _ [(key, item)] => do
      let first ← value fuel key
      let second ← value fuel item
      pure (.pair first second)
    | _ => .error .malformed

/-- The entries of a mapping as values. Of two equal keys the later value counts. -/
def entryValues : Nat → List (Node × Node) → Except Fault (List (Value × Value))
  | 0, _ => .error .malformed
  | fuel + 1, entries => do
    let merged ← mergedEntries fuel entries
    let values ← merged.mapM fun entry => do
      let key ← value fuel entry.1
      -- the key is made and judged before its value is looked at
      if key.isKey then
        let item ← value fuel entry.2
        pure (key, item)
      else .error .malformed
    pure (values.foldl (fun entries entry => Value.insert entries entry.1 entry.2) [])

end

end Node

/-- The root of the document of a text. -/
def Node.ofText? (t : Text) : Except Fault (Option Node) := do
  let tokens ← Token.ofText t
  Node.ofTokens? tokens

/-- The value of a text. -/
def Value.load (t : Text) : Except Fault Value := do
  let tokens ← Token.ofText t
  match ← Node.ofTokens? tokens with
  | none => pure .null
  | some node => node.value (8 * tokens.length + 8)

end DocGraph.Yaml
