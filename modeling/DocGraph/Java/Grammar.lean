import DocGraph.Java.Ahead
import DocGraph.Java.SourceReader

/-!
# The outline of a Java source

The outline has the full structure of declarations, members, types, parameters and statements, as
these decide which node stands beside which. Inside an expression only what can hold a declaration
has structure: class bodies, lambda blocks and switches. All else there is a row of tokens, with a
node around each pair of brackets.

The grammar is one step of a recursion: `Grammar.step` reads a part of the source by means of a
reader for the parts inside it. `Grammar.read` applies the step as often as the nesting of the
source can need.

A member that makes no sense is passed over up to its end, so the others are still found. Where a
source is cut off, the bodies still open end with it.
-/

namespace DocGraph.Java

/-- The parts of a source that can hold each other. -/
inductive Part
  | annotationUse
  | type
  | plainType
  | simpleType
  | typeArguments
  | item
  | block
  | statement
  | declaration
  | body (shape : BodyShape)
  | member (shape : BodyShape)
deriving DecidableEq, Repr

namespace Grammar

open Reader

/-- A reader for all parts. -/
abbrev Readers := Part → Reader (List Piece)

variable (inner : Readers)

/-- A part that is one node. -/
def one (part : Part) : Reader Piece := do
  match ← inner part with
  | [piece] => pure piece
  | _ => failure

/-- The annotations that begin here. -/
def annotations : Reader (List Piece) :=
  repeatWhile Ahead.startsAnnotationUse (inner .annotationUse)

/-- Items up to a token that satisfies the test. -/
def itemsUntil (stop : List Token → Bool) : Reader (List Piece) :=
  repeatWhile (fun tokens => !tokens.isEmpty && !stop tokens) (inner .item)

/-- An opening bracket, items and the closing bracket, as one node. -/
def bracketed (kind : NodeKind) (opening closing : Text) : Reader Piece := do
  let first ← mark opening
  let items ← itemsUntil inner (Ahead.starts closing)
  let last ← mark closing
  pure (Piece.branch kind (first :: items ++ [last]))

/-- Tokens and annotations up to a token that satisfies the test, as one node unless there are
none. -/
def headerUntil (stop : List Token → Bool) : Reader (List Piece) := do
  let pieces ← repeatWhile (fun tokens => !tokens.isEmpty && !stop tokens) (do
    if ← ahead Ahead.startsAnnotationUse then inner .annotationUse
    else
      let piece ← take .token
      pure [piece])
  pure (if pieces.isEmpty then [] else [Piece.branch .header pieces])

/-! ## Annotations and modifiers -/

/-- The words of a qualified name with the dots between them. -/
def nameWords : Nat → Reader (List Piece)
  | 0 => failure
  | steps + 1 => do
    let tokens ← tokens
    if Ahead.startsWith (·.isWord) tokens then
      let word ← take .identifier
      if Ahead.second "." tokens && Ahead.startsWith (·.isWord) (tokens.drop 2) then
        let dot ← mark "."
        let rest ← nameWords steps
        pure (word :: dot :: rest)
      else pure [word]
    else failure

def qualifiedName : Reader Piece := do
  let tokens ← tokens
  let words ← nameWords tokens.length
  pure (Piece.branchIfMany .scopedIdentifier words)

def annotationUse : Reader Piece := do
  let at_ ← mark "@"
  let name ← qualifiedName
  if ← nextIs "(" then
    let arguments ← bracketed inner .parenthesized "(" ")"
    pure (Piece.branch .annotationUse [at_, name, arguments])
  else pure (Piece.branch .annotationUse [at_, name])

/-- The modifiers that begin here, as one node unless there are none. -/
def modifiers : Reader (List Piece) := do
  let pieces ← repeatWhile
    (fun tokens => Ahead.startsAnnotationUse tokens || Ahead.startsWith (·.isModifier) tokens) (do
      if ← ahead Ahead.startsAnnotationUse then inner .annotationUse
      else
        let piece ← take .token
        pure [piece])
  pure (if pieces.isEmpty then [] else [Piece.branch .modifiers pieces])

/-! ## Types -/

/-- What may follow the start of a type: type arguments, or a dot and the name of an inner type. -/
def typeSuffix : Nat → Piece → Reader Piece
  | 0, type => pure type
  | steps + 1, type => do
    let tokens ← tokens
    if Ahead.starts "<" tokens then
      let arguments ← one inner .typeArguments
      typeSuffix steps (Piece.branch .genericType [type, arguments])
    else if Ahead.starts "." tokens &&
        Ahead.startsWith (·.isName) (Ahead.afterAnnotations tokens.length (tokens.drop 1)) then
      let dot ← mark "."
      let marks ← annotations inner
      let name ← take .typeIdentifier
      typeSuffix steps (Piece.branch .scopedType ([type, dot] ++ marks ++ [name]))
    else pure type

/-- A type without array brackets. -/
def simpleType : Reader Piece := do
  let tokens ← tokens
  if Ahead.startsWith (·.isPrimitive) tokens then take .primitiveType
  else if Ahead.startsWith (·.isName) tokens then
    let name ← take .typeIdentifier
    typeSuffix inner tokens.length name
  else failure

/-- Array brackets. -/
def dimensions : Reader (List Piece) := do
  let pieces ← repeatWhile Ahead.startsDimensions (do
    let marks ← annotations inner
    let opening ← mark "["
    let closing ← mark "]"
    pure (marks ++ [opening, closing]))
  pure (if pieces.isEmpty then [] else [Piece.branch .dimensions pieces])

/-- A type that begins with its name. -/
def plainType : Reader Piece := do
  let element ← one inner .simpleType
  match ← dimensions inner with
  | [] => pure element
  | brackets => pure (Piece.branch .arrayType (element.withRole .element :: brackets))

/-- A type that may begin with annotations. -/
def type : Reader Piece := do
  let marks ← annotations inner
  let plain ← one inner .plainType
  pure (if marks.isEmpty then plain else Piece.branch .annotatedType (marks ++ [plain]))

/-- A wildcard with its bound, behind annotations. -/
def wildcard (marks : List Piece) : Reader Piece := do
  let question ← mark "?"
  let tokens ← tokens
  if Ahead.starts "extends" tokens || Ahead.starts "super" tokens then
    let word ← take .token
    let bound ← one inner .type
    pure (Piece.branch .wildcard (marks ++ [question, word, bound]))
  else pure (Piece.branch .wildcard (marks ++ [question]))

/-- A type argument or a comma between two. -/
def typeArgument : Reader Piece := do
  if ← nextIs "," then take .token
  else if ← ahead fun tokens => Ahead.starts "?" (Ahead.afterAnnotations tokens.length tokens) then
    let marks ← annotations inner
    wildcard inner marks
  else one inner .type

/-- Type arguments, of which there may be none. -/
def typeArguments : Reader Piece := do
  let opening ← mark "<"
  let arguments ← repeatWhile (fun tokens => !Ahead.starts ">" tokens) (do
    let argument ← typeArgument inner
    pure [argument])
  let closing ← mark ">"
  pure (Piece.branch .typeArguments (opening :: arguments ++ [closing]))

/-- Tokens up to the angle bracket that closes the one that was opened, `depth` further ones being
open too. -/
def untilAngle : Nat → Nat → Reader (List Piece)
  | 0, _ => failure
  | steps + 1, depth => do
    let tokens ← tokens
    let pieces ←
      if Ahead.startsAnnotationUse tokens then inner .annotationUse
      else do
        let piece ← take .token
        pure [piece]
    -- the closing bracket itself has just been taken
    if Ahead.starts ">" tokens && depth = 0 then pure pieces
    else
      let depth :=
        if Ahead.starts "<" tokens then depth + 1
        else if Ahead.starts ">" tokens then depth - 1
        else depth
      let rest ← untilAngle steps depth
      pure (pieces ++ rest)

/-- The type parameters of a declaration, if it has any. -/
def typeParameters : Reader (List Piece) := do
  let tokens ← tokens
  if Ahead.starts "<" tokens then
    let opening ← mark "<"
    let rest ← untilAngle inner tokens.length 0
    pure [Piece.branch .typeParameters (opening :: rest)]
  else pure []

/-! ## Expressions -/

/-- The creation of an object or an array: the new type, arguments and the body of an anonymous
class. -/
def creation : Reader (List Piece) := do
  let word ← mark "new"
  let marks ← annotations inner
  let arguments ← if ← nextIs "<" then inner .typeArguments else pure []
  let more ← annotations inner
  let created ← one inner .simpleType
  let start := word :: marks ++ arguments ++ more ++ [created]
  if ← nextIs "(" then
    let values ← bracketed inner .parenthesized "(" ")"
    -- a body makes the new object one of an anonymous class
    if ← nextIs "\x7b" then
      let body ← one inner (.body .ofClass)
      pure (start ++ [values, body])
    else pure (start ++ [values])
  else pure start

/-- The tokens of a label up to its arrow or colon. A colon that belongs to a question mark before
it does not end the label; a question mark behind an angle bracket or a comma is a wildcard. -/
def labelItems : Nat → Nat → Bool → Reader (List Piece)
  | 0, _, _ => failure
  | steps + 1, questions, inTypes => do
    let tokens ← tokens
    if Ahead.starts "->" tokens || (Ahead.starts ":" tokens && questions = 0) then pure []
    else
      let pieces ← inner .item
      -- a colon pairs with the latest question mark, as in a conditional expression
      let questions :=
        if Ahead.starts ":" tokens then questions - 1
        else if Ahead.starts "?" tokens && !inTypes then questions + 1
        else questions
      let rest ← labelItems steps questions (Ahead.starts "<" tokens || Ahead.starts "," tokens)
      pure (pieces ++ rest)

/-- A label of a switch without its arrow or colon. -/
def label : Reader Piece := do
  let tokens ← tokens
  let word ← take .token
  let items ← labelItems inner tokens.length 0 false
  pure (Piece.branch .switchLabel (word :: items))

/-- A label and its colon. -/
def labelAndColon : Reader (List Piece) := do
  let label ← label inner
  let colon ← mark ":"
  pure [label, colon]

/-- Items up to a semicolon, and the semicolon. -/
def itemsAndSemicolon : Reader (List Piece) := do
  let items ← itemsUntil inner (Ahead.starts ";")
  let last ← mark ";"
  pure (items ++ [last])

/-- A label with an arrow and its result, or labels with colons and their statements. -/
def switchCase : Reader Piece := do
  let first ← label inner
  -- the first label tells which of the two forms the case has
  if ← nextIs "->" then
    let arrow ← mark "->"
    let result ← if ← nextIs "\x7b" then inner .block else itemsAndSemicolon inner
    pure (Piece.branch .switchRule (first :: arrow :: result))
  else
    let colon ← mark ":"
    let labels ← repeatWhile Ahead.startsLabel (labelAndColon inner)
    let statements ← repeatWhile
      (fun tokens => !tokens.isEmpty && !Ahead.starts "\x7d" tokens && !Ahead.startsLabel tokens)
      (inner .statement)
    pure (Piece.branch .switchGroup (first :: colon :: labels ++ statements))

/-- A switch with its selector and cases. -/
def switch : Reader (List Piece) := do
  let word ← mark "switch"
  let selector ← bracketed inner .parenthesized "(" ")"
  let opening ← mark "\x7b"
  let cases ← repeatWhile Ahead.startsLabel (do
    let one ← switchCase inner
    pure [one])
  let closing ← mark "\x7d"
  pure [word, selector, Piece.branch .switchBlock (opening :: cases ++ [closing])]

/-- A unit of an expression: a token, a bracketed row of units, or what can hold declarations. -/
def item : Reader (List Piece) := do
  let tokens ← tokens
  if Ahead.starts "(" tokens then
    let group ← bracketed inner .parenthesized "(" ")"
    pure [group]
  else if Ahead.starts "[" tokens then
    let group ← bracketed inner .expression "[" "]"
    pure [group]
  else if Ahead.starts "\x7b" tokens then
    let group ← bracketed inner .expression "\x7b" "\x7d"
    pure [group]
  else if Ahead.starts "\\\x7b" tokens then
    let group ← bracketed inner .expression "\\\x7b" "\x7d"
    pure [group]
  else if Ahead.starts ")" tokens || Ahead.starts "]" tokens || Ahead.starts "\x7d" tokens then
    failure
  -- the body of a function; behind an arrow without a brace comes an expression
  else if Ahead.starts "->" tokens && Ahead.second "\x7b" tokens then
    let arrow ← take .token
    let body ← inner .block
    pure (arrow :: body)
  -- here `new` names a constructor and creates nothing
  else if Ahead.starts "::" tokens && Ahead.second "new" tokens then
    let colons ← take .token
    let word ← take .token
    pure [colons, word]
  else if Ahead.starts "new" tokens then creation inner
  else if Ahead.starts "switch" tokens && Ahead.second "(" tokens then switch inner
  else
    let piece ← take .token
    pure [piece]

/-! ## Statements -/

def block : Reader Piece := do
  let opening ← mark "\x7b"
  let statements ← repeatWhile
    (fun tokens => !tokens.isEmpty && !Ahead.starts "\x7d" tokens) (inner .statement)
  let closing ← mark "\x7d"
  pure (Piece.branch .block (opening :: statements ++ [closing]))

/-- A keyword, a condition or header in parentheses, and a statement. -/
def controlled (word : Text) : Reader (List Piece) := do
  let first ← mark word
  let header ← bracketed inner .parenthesized "(" ")"
  let statement ← inner .statement
  pure (first :: header :: statement)

def conditional : Reader (List Piece) := do
  let first ← controlled inner "if"
  if ← nextIs "else" then
    let word ← mark "else"
    let other ← inner .statement
    pure (first ++ word :: other)
  else pure first

/-- A loop with its condition at the end. -/
def doLoop : Reader (List Piece) := do
  let first ← mark "do"
  let statement ← inner .statement
  let rest ← itemsAndSemicolon inner
  pure (first :: statement ++ rest)

/-- A clause behind a guarded block: its keyword, what it catches and its block. -/
def clause : Reader (List Piece) := do
  let word ← take .token
  let caught ← if ← nextIs "(" then inner .item else pure []
  let body ← inner .block
  pure [Piece.branch .statement (word :: caught ++ body)]

/-- A guarded block with its resources and clauses. -/
def guarded : Reader (List Piece) := do
  let word ← mark "try"
  let resources ← if ← nextIs "(" then inner .item else pure []
  let body ← inner .block
  let clauses ← repeatWhile
    (fun tokens => Ahead.starts "catch" tokens || Ahead.starts "finally" tokens) (clause inner)
  pure (word :: resources ++ body ++ clauses)

/-- A block that holds a lock. -/
def locked : Reader (List Piece) := do
  let word ← mark "synchronized"
  let lock ← bracketed inner .parenthesized "(" ")"
  let body ← inner .block
  pure (word :: lock :: body)

/-- A statement with a name in front. -/
def labelled : Reader (List Piece) := do
  let name ← take .identifier
  let colon ← mark ":"
  let statement ← inner .statement
  pure (name :: colon :: statement)

def statementOf (pieces : List Piece) : Reader Piece := pure (Piece.branch .statement pieces)

/-- A statement. A lone semicolon is a token. -/
def statement : Reader Piece := do
  let tokens ← tokens
  if Ahead.starts "\x7b" tokens then one inner .block
  else if Ahead.starts ";" tokens then take .token
  else if Ahead.startsTypeDeclaration tokens then one inner .declaration
  else if Ahead.starts "if" tokens then conditional inner >>= statementOf
  else if Ahead.starts "while" tokens then controlled inner "while" >>= statementOf
  else if Ahead.starts "for" tokens then controlled inner "for" >>= statementOf
  else if Ahead.starts "do" tokens then doLoop inner >>= statementOf
  else if Ahead.starts "switch" tokens then switch inner >>= statementOf
  else if Ahead.starts "try" tokens then guarded inner >>= statementOf
  else if Ahead.starts "synchronized" tokens && Ahead.second "(" tokens then
    locked inner >>= statementOf
  else if Ahead.startsWith (·.isName) tokens && Ahead.second ":" tokens then
    labelled inner >>= statementOf
  else itemsAndSemicolon inner >>= statementOf

/-! ## Members -/

/-- One parameter, receivers and parameters of variable number included. -/
def parameter : Reader Piece := do
  let marks ← modifiers inner
  let type ← one inner .plainType
  let start := marks ++ [type.withRole .type]
  let stop := fun tokens => Ahead.starts "," tokens || Ahead.starts ")" tokens
  let tokens ← tokens
  -- annotations may stand between the type and the dots
  if Ahead.starts "..." (Ahead.afterAnnotations tokens.length tokens) then
    let before ← annotations inner
    let dots ← mark "..."
    let behind ← annotations inner
    let name ← itemsUntil inner stop
    pure (Piece.branch .spreadParameter
      (start ++ before ++ dots :: behind ++ [Piece.branch .declarators name]))
  else if Ahead.starts "this" tokens || Ahead.second "." tokens then
    let receiver ← itemsUntil inner stop
    pure (Piece.branch .receiverParameter (start ++ receiver))
  else if Ahead.startsWith (·.isName) tokens then
    let name ← take .identifier
    let brackets ← itemsUntil inner stop
    pure (Piece.branch .formalParameter (start ++ name.withRole .name :: brackets))
  else failure

/-- The parameters of a callable member or the components of a record. -/
def formalParameters : Reader Piece := do
  let opening ← mark "("
  let parameters ← repeatWhile
    (fun tokens => !tokens.isEmpty && !Ahead.starts ")" tokens) (do
      let piece ← if ← nextIs "," then take .token else parameter inner
      pure [piece])
  let closing ← mark ")"
  pure (Piece.branch .formalParameters (opening :: parameters ++ [closing]))

def declaredName : Reader Piece := do
  if ← ahead (Ahead.startsWith (·.isWord)) then
    let name ← take .identifier
    pure (name.withRole .name)
  else failure

/-- The body of a callable member, or the semicolon in its place. -/
def callableBody : Reader (List Piece) := do
  if ← nextIs ";" then
    let last ← mark ";"
    pure [last]
  else
    let body ← one inner .block
    pure [body.withRole .body]

/-- What stands between the parameters of a callable member and its body. -/
def callableHeader : Reader (List Piece) :=
  headerUntil inner fun tokens => Ahead.starts "\x7b" tokens || Ahead.starts ";" tokens

/-- A constructor from its name on. A compact one has no parameters of its own. -/
def constructor_ (start : List Piece) : Reader Piece := do
  let name ← declaredName
  if ← nextIs "(" then
    let parameters ← formalParameters inner
    let header ← callableHeader inner
    let body ← callableBody inner
    pure (Piece.branch .constructorDeclaration
      (start ++ [name, parameters.withRole .parameters] ++ header ++ body))
  else
    let body ← callableBody inner
    pure (Piece.branch .constructorDeclaration (start ++ name :: body))

/-- A method from its parameters on. -/
def method (start : List Piece) : Reader Piece := do
  let parameters ← formalParameters inner
  let header ← callableHeader inner
  let body ← callableBody inner
  pure (Piece.branch .methodDeclaration
    (start ++ parameters.withRole .parameters :: header ++ body))

/-- An element of an annotation type from its parentheses on. -/
def annotationElement (start : List Piece) : Reader Piece := do
  let rest ← itemsAndSemicolon inner
  pure (Piece.branch .annotationElementDeclaration (start ++ rest))

/-- Notes a value that is missing behind an equals sign. -/
def checkValues : List Token → Reader Unit
  | [] => pure ()
  | token :: rest =>
    if token.is "=" && Ahead.starts ";" rest then fault
    else if token.is ";" then pure ()
    else checkValues rest

/-- A field from behind its name on. The semicolon may be missing before the end of the body. -/
def field (shape : BodyShape) (start : List Piece) (name : Piece) : Reader Piece := do
  let kind := if shape = .ofClass ∨ shape = .ofEnum then NodeKind.fieldDeclaration
    else .constantDeclaration
  let tokens ← tokens
  checkValues tokens
  -- the brace stays, as it ends the body around the field
  if Ahead.starts "\x7d" tokens then
    fault
    pure (Piece.branch kind (start ++ [Piece.branch .declarators [name]]))
  else if Ahead.starts ";" tokens || Ahead.starts "," tokens || Ahead.starts "=" tokens ||
      Ahead.startsDimensions tokens then
    let rest ← itemsUntil inner (Ahead.starts ";")
    let last ← mark ";"
    pure (Piece.branch kind (start ++ [Piece.branch .declarators (name :: rest), last]))
  else failure

/-- A member that begins with a type. -/
def typedMember (shape : BodyShape) (start : List Piece) : Reader Piece := do
  let type ← one inner .plainType
  let start := start ++ [type.withRole .type]
  let name ← declaredName
  if ← nextIs "(" then
    if shape = .ofAnnotationType then annotationElement inner (start ++ [name])
    else method inner (start ++ [name])
  else field inner shape start name

/-- Whether a constructor begins here, behind its modifiers and type parameters. -/
def startsConstructor (tokens : List Token) : Bool :=
  Ahead.startsWith (·.isName) tokens && (Ahead.second "(" tokens || Ahead.second "\x7b" tokens)

def member (shape : BodyShape) : Reader Piece := do
  let tokens ← tokens
  if Ahead.starts ";" tokens then take .token
  else if Ahead.starts "\x7b" tokens then one inner .block
  else if Ahead.starts "static" tokens && Ahead.second "\x7b" tokens then
    let word ← mark "static"
    let body ← one inner .block
    pure (Piece.branch .initializer [word, body])
  else if Ahead.startsTypeDeclaration tokens then one inner .declaration
  else
    let marks ← modifiers inner
    let parameters ← typeParameters inner
    let more ← annotations inner
    let start := marks ++ parameters ++ more
    -- a constructor has no type in front of its name
    if ← ahead startsConstructor then constructor_ inner start
    else typedMember inner shape start

/-- Passes over a member that makes no sense. -/
def faultyMember : Reader Piece := do
  let tokens ← tokens
  match Ahead.faultLength? 0 tokens with
  | some length =>
    fault
    -- at least one token goes, so that the next member begins further on
    let pieces ← loop (fun _ => true) (do
      let piece ← take .token
      pure [piece]) (max length 1)
    pure (Piece.branch .fault pieces)
  | none => failure

/-- The members of a body up to its end. -/
def members (shape : BodyShape) : Reader (List Piece) :=
  repeatWhile (fun tokens => !tokens.isEmpty && !Ahead.starts "\x7d" tokens) (do
    let piece ← either (one inner (.member shape)) faultyMember
    pure [piece])

/-- The brace that ends a body. Where the source is cut off, the body ends with it. -/
def bodyEnd : Reader (List Piece) := do
  if ← ahead (·.isEmpty) then
    fault
    pure []
  else
    let closing ← mark "\x7d"
    pure [closing]

/-- A constant of an enumeration with its arguments and body. -/
def enumConstant : Reader Piece := do
  let marks ← modifiers inner
  let name ← declaredName
  let arguments ← if ← nextIs "(" then inner .item else pure []
  let body ← if ← nextIs "\x7b" then inner (.body .ofClass) else pure []
  pure (Piece.branch .enumConstant (marks ++ name :: arguments ++ body))

/-- The members of an enumeration, which follow its constants behind a semicolon. -/
def enumMembers : Reader (List Piece) := do
  if ← nextIs ";" then
    let first ← mark ";"
    let rest ← members inner .ofClass
    pure [Piece.branch .enumBodyDeclarations (first :: rest)]
  else pure []

def enumBody : Reader Piece := do
  let opening ← mark "\x7b"
  let constants ← repeatWhile
    (fun tokens => !tokens.isEmpty && !Ahead.starts ";" tokens && !Ahead.starts "\x7d" tokens) (do
      let piece ← if ← nextIs "," then take .token else enumConstant inner
      pure [piece])
  let rest ← enumMembers inner
  let closing ← bodyEnd
  pure (Piece.branch .enumBody (opening :: constants ++ rest ++ closing))

def bodyKind : BodyShape → NodeKind
  | .ofClass => .classBody
  | .ofInterface => .interfaceBody
  | .ofAnnotationType => .annotationTypeBody
  | .ofEnum => .enumBody

def body (shape : BodyShape) : Reader Piece := do
  if shape = .ofEnum then enumBody inner
  else
    let opening ← mark "\x7b"
    let members ← members inner shape
    let closing ← bodyEnd
    pure (Piece.branch (bodyKind shape) (opening :: members ++ closing))

/-! ## Declarations -/

/-- A type declaration from its name on. -/
def declarationRest (kind : NodeKind) (shape : BodyShape) (start : List Piece) : Reader Piece := do
  let name ← declaredName
  -- the components of a record stand in parentheses, behind its type parameters
  let before ← if kind = .recordDeclaration then headerUntil inner (Ahead.starts "(") else pure []
  let parameters ←
    if kind = .recordDeclaration then do
      let parameters ← formalParameters inner
      pure [parameters.withRole .parameters]
    else pure []
  let header ← headerUntil inner (Ahead.starts "\x7b")
  let body ← one inner (.body shape)
  pure (Piece.branch kind
    (start ++ name :: before ++ parameters ++ header ++ [body.withRole .body]))

def declaration : Reader Piece := do
  let marks ← modifiers inner
  let tokens ← tokens
  let first ← take .token
  let start := marks ++ [first]
  if Ahead.starts "class" tokens then declarationRest inner .classDeclaration .ofClass start
  else if Ahead.starts "interface" tokens then
    declarationRest inner .interfaceDeclaration .ofInterface start
  else if Ahead.starts "enum" tokens then declarationRest inner .enumDeclaration .ofEnum start
  else if Ahead.starts "record" tokens then
    declarationRest inner .recordDeclaration .ofClass start
  else if Ahead.starts "@" tokens then
    let word ← mark "interface"
    declarationRest inner .annotationTypeDeclaration .ofAnnotationType (start ++ [word])
  else failure

/-- A method outside all types. -/
def freeMethod : Reader Piece := do
  let marks ← modifiers inner
  let parameters ← typeParameters inner
  let more ← annotations inner
  let type ← one inner .plainType
  let name ← declaredName
  method inner (marks ++ parameters ++ more ++ [type.withRole .type, name])

def packageDeclaration : Reader Piece := do
  let marks ← annotations inner
  let word ← mark "package"
  let name ← qualifiedName
  let last ← mark ";"
  pure (Piece.branch .packageDeclaration (marks ++ [word, name, last]))

def moduleDeclaration : Reader Piece := do
  let header ← headerUntil inner (Ahead.starts "\x7b")
  let body ← bracketed inner .block "\x7b" "\x7d"
  pure (Piece.branch .moduleDeclaration (header ++ [body]))

/-- What can stand outside all types. -/
def outermost : Reader Piece := do
  let tokens ← tokens
  if Ahead.startsPackage tokens then packageDeclaration inner
  else if Ahead.starts "import" tokens then
    let rest ← itemsAndSemicolon inner
    pure (Piece.branch .importDeclaration rest)
  else if Ahead.startsModule tokens then moduleDeclaration inner
  else if Ahead.startsTypeDeclaration tokens then one inner .declaration
  -- a statement can begin like a method, so the method is tried first
  else either (freeMethod inner) (one inner .statement)

/-- One level of nesting. -/
def step (part : Part) : Reader (List Piece) :=
  match part with
  | .annotationUse => do pure [← annotationUse inner]
  | .type => do pure [← type inner]
  | .plainType => do pure [← plainType inner]
  | .simpleType => do pure [← simpleType inner]
  | .typeArguments => do pure [← typeArguments inner]
  | .item => item inner
  | .block => do pure [← block inner]
  | .statement => do pure [← statement inner]
  | .declaration => do pure [← declaration inner]
  | .body shape => do pure [← body inner shape]
  | .member shape => do pure [← member inner shape]

/-- The parts of a source down to a given depth of nesting. -/
def read : Nat → Readers
  | 0, _ => failure
  | depth + 1, part => step (read depth) part

/-- All that stands outside types. A token that begins nothing is passed over. -/
def everything (depth : Nat) : Reader (List Piece) :=
  repeatWhile (fun tokens => !tokens.isEmpty) (do
    let piece ← either (outermost (read depth)) (do
      fault
      take .fault)
    pure [piece])

end Grammar

/-- The outline of a source. Each token opens at most a few levels of nesting, so their number
bounds the depth. -/
def outline (source : Text) : SourceTree :=
  let (tokens, trailing) := Token.group [] (lexemes source)
  -- the comments behind the last token have no piece to stand before
  let trailing := trailing.map commentNode
  match Grammar.everything (8 * tokens.length + 8) ⟨tokens, false⟩ with
  | some (pieces, state) =>
    ⟨.branch .program none (Piece.nodes pieces ++ trailing), state.faulty⟩
  | none => ⟨.branch .program none trailing, true⟩

end DocGraph.Java
