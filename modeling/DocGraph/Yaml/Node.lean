import DocGraph.Yaml.Schema
import DocGraph.Yaml.Token

/-!
# Nodes

A document is a tree of nodes: scalars, sequences and mappings, each with its kind. An alias stands
for the node that carries its anchor, so that node occurs in several places; mappings are numbered
in order to tell one mapping in two places from two equal ones. A collection that would hold itself
is refused.

`Node.ofTokens?` reads the one document of a stream, of which an empty stream has none. Collections
in block style and in flow style differ only in the marks between their entries.
-/

namespace DocGraph.Yaml

/-- A node of a document. -/
inductive Node
  | scalar (kind : Kind) (text : Text)
  | sequence (kind : Kind) (items : List Node)
  | mapping (number : Nat) (kind : Kind) (entries : List (Node × Node))
deriving Repr

/-- What an anchor stands for: a node, or nothing yet while its collection is being read. -/
structure Anchored where
  name : Text
  node : Option Node

/-- The state of reading nodes: the tokens to come, the anchors of the document, the number for the
next mapping and what the handles of tags stand for. -/
structure Reading where
  tokens : List Token
  anchors : List Anchored
  number : Nat
  handles : List (Text × Text)

/-- A reader of nodes. -/
abbrev Reader := StateT Reading (Except Fault)

namespace Reader

def refuse {α : Type} : Reader α := throw .malformed

def peek : Reader Token := do
  let reading ← get
  pure (reading.tokens.headD .streamEnd)

def take : Reader Unit := modify fun reading => { reading with tokens := reading.tokens.drop 1 }

/-- Takes the next token if it is a given one. -/
def takes (token : Token) : Reader Bool := do
  if (← peek) = token then
    take
    pure true
  else pure false

/-- Whether the next token is one of several. -/
def isAt (tokens : List Token) : Reader Bool := do
  pure (tokens.elem (← peek))

/-- Whether a flow collection goes on: always at its start, and else behind a comma. -/
def goesOn (isFirst : Bool) : Reader Bool := if isFirst then pure true else takes .flowEntry

/-- The handles that need no directive. -/
def standardHandles : List (Text × Text) := [(['!'], ['!']), (['!', '!'], standardTag)]

/-- The tag that a tag in use stands for. -/
def fullTag (use : TagUse) : Reader Text := do
  match use.handle with
  | none => pure use.suffix
  | some handle =>
    match (← get).handles.find? (·.1 = handle) with
    | some entry => pure (entry.2 ++ use.suffix)
    | none => refuse

/-- The node that an alias stands for. -/
def anchored (name : Text) : Reader Node := do
  match (← get).anchors.find? (·.name = name) with
  -- an anchor without a node yet is that of a collection around the alias
  | some ⟨_, some node⟩ => pure node
  | _ => refuse

/-- Sets up an anchor, which must be new. -/
def openAnchor (name : Option Text) : Reader Unit := do
  match name with
  | none => pure ()
  | some name =>
    if (← get).anchors.any (·.name = name) then refuse
    else modify fun reading => { reading with anchors := ⟨name, none⟩ :: reading.anchors }

/-- Gives an anchor its node. -/
def closeAnchor (name : Option Text) (node : Node) : Reader Node := do
  match name with
  | none => pure node
  | some name =>
    modify fun reading =>
      { reading with
        anchors := reading.anchors.map fun entry =>
          if entry.name = name then ⟨name, some node⟩ else entry }
    pure node

def newNumber : Reader Nat := do
  let reading ← get
  set { reading with number := reading.number + 1 }
  pure reading.number

/-- The node where a scalar was left out. -/
def emptyNode : Node := .scalar .null []

/-- The properties of a node: an anchor and a tag, in either order. -/
def properties : Reader (Option Text × Option Text) := do
  match ← peek with
  | .anchor name =>
    take
    match ← peek with
    | .tag use =>
      take
      pure (some name, some (← fullTag use))
    | _ => pure (some name, none)
  | .tag use =>
    take
    match ← peek with
    | .anchor name =>
      take
      pure (some name, some (← fullTag use))
    | _ => pure (none, some (← fullTag use))
  | _ => pure (none, none)

/-- The kind of a scalar. Without a tag, and with the tag `!`, its form tells. -/
def scalarKind (tag : Option Text) (plain : Bool) (t : Text) : Kind :=
  match tag with
  | some tag => if tag = ['!'] then plainKind t else Kind.ofTag tag
  | none => if plain then plainKind t else .text

def collectionKind (tag : Option Text) (kind : Kind) : Kind :=
  match tag with
  | some tag => if tag = ['!'] then kind else Kind.ofTag tag
  | none => kind

/-- Where a node stands, which decides how it may be written. -/
inductive Place
  | block
  | blockOrIndentless
  | flow
deriving DecidableEq, Repr

mutual

def node : Nat → Place → Reader Node
  | 0, _ => refuse
  | fuel + 1, place => do
    match ← peek with
    | .alias name =>
      take
      anchored name
    | _ =>
      let (anchor, tag) ← properties
      openAnchor anchor
      let token ← peek
      match token with
      | .scalar t plain =>
        take
        closeAnchor anchor (.scalar (scalarKind tag plain t) t)
      | .flowSequenceStart =>
        take
        let items ← flowItems fuel true
        closeAnchor anchor (.sequence (collectionKind tag .sequence) items)
      | .flowMappingStart =>
        take
        let number ← newNumber
        let entries ← flowEntries fuel true
        closeAnchor anchor (.mapping number (collectionKind tag .mapping) entries)
      | _ =>
        if token = .blockEntry ∧ place = .blockOrIndentless then
          let items ← indentlessItems fuel
          closeAnchor anchor (.sequence (collectionKind tag .sequence) items)
        else if token = .sequenceStart ∧ place ≠ .flow then
          take
          let items ← blockItems fuel
          closeAnchor anchor (.sequence (collectionKind tag .sequence) items)
        else if token = .mappingStart ∧ place ≠ .flow then
          take
          let number ← newNumber
          let entries ← blockEntries fuel
          closeAnchor anchor (.mapping number (collectionKind tag .mapping) entries)
        -- properties alone make an empty scalar
        else if anchor.isSome ∨ tag.isSome then
          closeAnchor anchor (.scalar (scalarKind tag true []) [])
        else refuse

/-- Reads a node, or an empty one if one of the given tokens follows. -/
def nodeUnless : Nat → Place → List Token → Reader Node
  | 0, _, _ => refuse
  | fuel + 1, place, ends => do
    if ← isAt ends then pure emptyNode else node fuel place

/-- Reads the items of a block sequence. -/
def blockItems : Nat → Reader (List Node)
  | 0 => refuse
  | fuel + 1 => do
    if ← takes .blockEntry then
      let item ← nodeUnless fuel .block [.blockEntry, .blockEnd]
      let more ← blockItems fuel
      pure (item :: more)
    else if ← takes .blockEnd then pure []
    else refuse

/-- Reads the items of a sequence that is not indented further than the mapping around it. -/
def indentlessItems : Nat → Reader (List Node)
  | 0 => refuse
  | fuel + 1 => do
    if ← takes .blockEntry then
      let item ← nodeUnless fuel .block [.blockEntry, .key, .value, .blockEnd]
      let more ← indentlessItems fuel
      pure (item :: more)
    else pure []

/-- Reads the entries of a block mapping. -/
def blockEntries : Nat → Reader (List (Node × Node))
  | 0 => refuse
  | fuel + 1 => do
    if ← takes .key then
      let key ← nodeUnless fuel .blockOrIndentless [.key, .value, .blockEnd]
      let value ← blockValue fuel
      let more ← blockEntries fuel
      pure ((key, value) :: more)
    else if ← takes .blockEnd then pure []
    else refuse

/-- Reads the value of an entry of a block mapping. -/
def blockValue : Nat → Reader Node
  | 0 => refuse
  | fuel + 1 => do
    if ← takes .value then nodeUnless fuel .blockOrIndentless [.key, .value, .blockEnd]
    else pure emptyNode

/-- Reads the items of a flow sequence. An item may be a mapping of one entry. -/
def flowItems : Nat → Bool → Reader (List Node)
  | 0, _ => refuse
  | fuel + 1, isFirst => do
    if ← takes .flowSequenceEnd then pure []
    else if ← goesOn isFirst then
      if ← takes .key then
        let number ← newNumber
        let key ← nodeUnless fuel .flow [.value, .flowEntry, .flowSequenceEnd]
        let value ← flowValue fuel .flowSequenceEnd
        let more ← flowItems fuel false
        pure (.mapping number .mapping [(key, value)] :: more)
      -- a comma may stand behind the last item
      else if ← takes .flowSequenceEnd then pure []
      else
        let item ← node fuel .flow
        let more ← flowItems fuel false
        pure (item :: more)
    else refuse

/-- Reads the entries of a flow mapping. An entry may lack its value. -/
def flowEntries : Nat → Bool → Reader (List (Node × Node))
  | 0, _ => refuse
  | fuel + 1, isFirst => do
    if ← takes .flowMappingEnd then pure []
    else if ← goesOn isFirst then
      if ← takes .key then
        let key ← nodeUnless fuel .flow [.value, .flowEntry, .flowMappingEnd]
        let value ← flowValue fuel .flowMappingEnd
        let more ← flowEntries fuel false
        pure ((key, value) :: more)
      else if ← takes .flowMappingEnd then pure []
      else
        let key ← node fuel .flow
        let more ← flowEntries fuel false
        pure ((key, emptyNode) :: more)
    else refuse

/-- Reads the value of an entry of a flow collection. -/
def flowValue : Nat → Token → Reader Node
  | 0, _ => refuse
  | fuel + 1, ending => do
    if ← takes .value then nodeUnless fuel .flow [.flowEntry, ending]
    else pure emptyNode

end

/-- Reads directives. Only the first version is understood, and no directive may be repeated. -/
def directives : Nat → Bool → List (Text × Text) → Reader (List (Text × Text))
  | 0, _, _ => refuse
  | fuel + 1, versioned, handles => do
    match ← peek with
    | .directive (.version major) =>
      take
      if versioned || major.dropWhile (· = '0') ≠ ['1'] then refuse
      else directives fuel true handles
    | .directive (.tagHandle handle start) =>
      take
      if handles.any (·.1 = handle) then refuse
      else directives fuel versioned ((handle, start) :: handles)
    | .directive .unknown =>
      take
      directives fuel versioned handles
    | _ => pure handles

/-- Takes the marks at the end of a document. -/
def documentEnds : Nat → Reader Unit
  | 0 => refuse
  | fuel + 1 => do
    if ← takes .documentEnd then documentEnds fuel else pure ()

/-- Reads a document that begins with directives or a mark. -/
def explicitDocument (fuel : Nat) : Reader (Option Node) := do
  documentEnds fuel
  if (← peek) = .streamEnd then pure none
  else
    let handles ← directives fuel false []
    modify fun reading => { reading with handles := handles ++ standardHandles }
    if ← takes .documentStart then
      match ← peek with
      | .directive _ => pure (some emptyNode)
      | .documentStart => pure (some emptyNode)
      | .documentEnd => pure (some emptyNode)
      | .streamEnd => pure (some emptyNode)
      | _ => some <$> node fuel .block
    else refuse

/-- Reads the document of a stream and makes sure that there is no other. -/
def document (fuel : Nat) : Reader (Option Node) := do
  let root ←
    match ← peek with
    | .directive _ => explicitDocument fuel
    | .documentStart => explicitDocument fuel
    | .streamEnd => pure none
    | _ => some <$> node fuel .block
  documentEnds fuel
  if (← peek) = .streamEnd then pure root else refuse

end Reader

/-- The root of the only document of a stream of tokens. -/
def Node.ofTokens? (tokens : List Token) : Except Fault (Option Node) :=
  (Reader.document (4 * tokens.length + 4)).run' ⟨tokens, [], 0, Reader.standardHandles⟩

end DocGraph.Yaml
