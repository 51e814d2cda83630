import DocGraph.Java.Tree

/-!
# Building syntax trees

A reader takes tokens off the front of a source and builds pieces of the tree. A token carries the
comments before it, and a piece those before its first token: they belong to a node further out.
`Piece.branch` makes a node of pieces and puts the comments between two pieces between the two
nodes, so a comment ends up in the smallest node around it.

A reader fails where the source has not the expected shape; alternatives start again from the same
place. A reader may also go on and note a fault.
-/

namespace DocGraph.Java

/-- A lexeme that is no comment, with the comments before it. -/
structure Token where
  lexeme : Lexeme
  comments : List Lexeme
deriving DecidableEq, Repr

namespace Token

/-- The tokens of lexemes and the comments behind the last one, given the comments already met. -/
def group (comments : List Lexeme) : List Lexeme → List Token × List Lexeme
  | [] => ([], comments)
  | x :: rest =>
    if x.isComment then group (comments ++ [x]) rest
    else
      let (tokens, trailing) := group [] rest
      (⟨x, comments⟩ :: tokens, trailing)

/-- Whether the token is the given mark or word. -/
def is (token : Token) (text : Text) : Bool :=
  token.lexeme.text == text && token.lexeme.kind != .literal

/-- Whether the token is a name or a keyword. -/
def isWord (token : Token) : Bool := token.lexeme.kind == .word

end Token

def commentNode (x : Lexeme) : Tree :=
  .leaf (if x.kind = .blockComment then .blockComment else .lineComment) none x

/-- A node and the comments before it. -/
structure Piece where
  comments : List Tree
  node : Tree
deriving Repr

namespace Piece

/-- A token as a node of a kind. -/
def ofToken (kind : NodeKind) (token : Token) : Piece :=
  ⟨token.comments.map commentNode, .leaf kind none token.lexeme⟩

def withRole (role : Role) (piece : Piece) : Piece := ⟨piece.comments, piece.node.withRole role⟩

/-- The nodes of pieces with the comments between them. -/
def nodes (pieces : List Piece) : List Tree :=
  pieces.flatMap fun piece => piece.comments ++ [piece.node]

/-- A node made of pieces. The comments before the first one stay outside. -/
def branch (kind : NodeKind) : List Piece → Piece
  | [] => ⟨[], .branch kind none []⟩
  -- the comments in front go to whatever node this one becomes a part of
  | first :: rest => ⟨first.comments, .branch kind none (first.node :: nodes rest)⟩

/-- A node made of pieces, or the only piece itself. -/
def branchIfMany (kind : NodeKind) : List Piece → Piece
  | [only] => only
  | pieces => branch kind pieces

end Piece

/-- The tokens to come, and whether a fault has been met. -/
structure ReaderState where
  tokens : List Token
  faulty : Bool
deriving Repr

/-- A reader of a part of the source. -/
abbrev Reader := StateT ReaderState Option

namespace Reader

def tokens : Reader (List Token) := do
  let state ← get
  pure state.tokens

/-- Whether the tokens to come satisfy a test. -/
def ahead (test : List Token → Bool) : Reader Bool := do
  let tokens ← tokens
  pure (test tokens)

/-- Whether the next token is the given mark or word. -/
def nextIs (text : Text) : Reader Bool :=
  ahead fun tokens => (tokens.head?.map (·.is text)).getD false

/-- Takes the next token as a node of a kind. -/
def take (kind : NodeKind) : Reader Piece := do
  let state ← get
  match state.tokens with
  | [] => failure
  | token :: rest =>
    set { state with tokens := rest }
    pure (Piece.ofToken kind token)

/-- Takes the next token, which must be the given one. -/
def mark (text : Text) : Reader Piece := do
  if ← nextIs text then take .token else failure

/-- Notes a fault and goes on. -/
def fault : Reader Unit := modify fun state => { state with faulty := true }

/-- The first reader, or the second from the same place if the first fails. -/
def either (first second : Reader α) : Reader α := fun state =>
  match first state with
  | some result => some result
  | none => second state

/-- The pieces that a reader gives, read again and again while a test on the tokens holds, at most a
given number of times. -/
def loop (test : List Token → Bool) (reader : Reader (List Piece)) : Nat → Reader (List Piece)
  | 0 => pure []
  | steps + 1 => do
    if ← ahead test then
      let pieces ← reader
      let more ← loop test reader steps
      pure (pieces ++ more)
    else pure []

/-- The pieces that a reader gives, read while a test on the tokens holds. Each reading takes a
token, so the tokens bound their number. -/
def repeatWhile (test : List Token → Bool) (reader : Reader (List Piece)) : Reader (List Piece) := do
  let tokens ← tokens
  loop test reader tokens.length

end Reader

end DocGraph.Java
