import DocGraph.Java.Piece

/-!
# Looking ahead in a source

What begins at a place can often be told only behind the modifiers and annotations in front of it.
The functions of this module skip those and look at the tokens that follow. They change nothing.
-/

namespace DocGraph.Java

/-- The four shapes of type bodies. -/
inductive BodyShape
  | ofClass
  | ofInterface
  | ofAnnotationType
  | ofEnum
deriving DecidableEq, Repr

/-- The words that are never names. -/
def reservedWords : List Text :=
  Text.ofStrings ["abstract", "assert", "boolean", "break", "byte", "case", "catch", "char", "class", "const",
    "continue", "default", "do", "double", "else", "enum", "extends", "false", "final", "finally",
    "float", "for", "goto", "if", "implements", "import", "instanceof", "int", "interface", "long",
    "native", "new", "null", "package", "private", "protected", "public", "return", "short",
    "static", "strictfp", "super", "switch", "synchronized", "this", "throw", "throws", "transient",
    "true", "try", "void", "volatile", "while"]

/-- The words of types that no source declares. -/
def primitiveWords : List Text :=
  Text.ofStrings ["boolean", "byte", "char", "double", "float", "int", "long", "short", "void"]

/-- The words that modify a declaration. -/
def modifierWords : List Text :=
  Text.ofStrings ["public", "protected", "private", "abstract", "static", "final", "strictfp", "default",
    "synchronized", "native", "transient", "volatile", "sealed", "non-sealed"]

namespace Token

/-- Whether the token can be a name. -/
def isName (token : Token) : Bool := token.isWord && !(reservedWords.elem token.lexeme.text)

/-- Whether the token is the word of a primitive type. -/
def isPrimitive (token : Token) : Bool := token.isWord && primitiveWords.elem token.lexeme.text

/-- Whether the token is a word that modifies a declaration. -/
def isModifier (token : Token) : Bool := token.isWord && modifierWords.elem token.lexeme.text

end Token

namespace Ahead

/-- Whether the first token is the given one. -/
def starts (text : Text) (tokens : List Token) : Bool :=
  (tokens.head?.map (·.is text)).getD false

/-- Whether the second token is the given one. -/
def second (text : Text) (tokens : List Token) : Bool := starts text (tokens.drop 1)

/-- Whether the first token satisfies a test. -/
def startsWith (test : Token → Bool) (tokens : List Token) : Bool :=
  (tokens.head?.map test).getD false

/-- The tokens behind the parenthesis that closes the one that was opened, `depth` further ones
being open too. -/
def afterParenthesis (depth : Nat) : List Token → List Token
  | [] => []
  | token :: rest =>
    if token.is "(" then afterParenthesis (depth + 1) rest
    else if token.is ")" then
      if depth = 0 then rest else afterParenthesis (depth - 1) rest
    else afterParenthesis depth rest

/-- Whether an annotation begins here. The same mark begins the declaration of an annotation type.
-/
def startsAnnotationUse (tokens : List Token) : Bool := starts "@" tokens && !second "interface" tokens

/-- The tokens behind a qualified name that begins with the first token. -/
def afterName : List Token → List Token
  | _ :: dot :: name :: rest => if dot.is "." && name.isWord then afterName (name :: rest)
    else dot :: name :: rest
  | _ :: rest => rest
  | [] => []

/-- The tokens behind an annotation that begins here. -/
def afterAnnotationUse (tokens : List Token) : List Token :=
  let rest := afterName (tokens.drop 1)
  if starts "(" rest then afterParenthesis 0 (rest.drop 1) else rest

/-- The tokens behind the annotations that begin here, looked for in a given number of steps. -/
def afterAnnotations : Nat → List Token → List Token
  | 0, tokens => tokens
  | steps + 1, tokens =>
    if startsAnnotationUse tokens then afterAnnotations steps (afterAnnotationUse tokens) else tokens

/-- The tokens behind the modifiers that begin here, looked for in a given number of steps. -/
def afterModifiers : Nat → List Token → List Token
  | 0, tokens => tokens
  | steps + 1, tokens =>
    if startsAnnotationUse tokens then afterModifiers steps (afterAnnotationUse tokens)
    else if startsWith (·.isModifier) tokens then afterModifiers steps (tokens.drop 1)
    else tokens

/-- Whether `record` begins the declaration of a record here: a name and a header must follow. -/
def startsRecord (tokens : List Token) : Bool :=
  -- the word alone is also a plain name
  starts "record" tokens && startsWith (·.isWord) (tokens.drop 1) &&
    (starts "(" (tokens.drop 2) || starts "<" (tokens.drop 2))

/-- Whether the keyword of a type declaration stands here. -/
def atTypeKeyword (tokens : List Token) : Bool :=
  starts "class" tokens || starts "interface" tokens || starts "enum" tokens ||
    (starts "@" tokens && second "interface" tokens) || startsRecord tokens

/-- Whether a type declaration begins here, modifiers included. -/
def startsTypeDeclaration (tokens : List Token) : Bool :=
  atTypeKeyword (afterModifiers tokens.length tokens)

/-- Whether a package declaration begins here, annotations included. -/
def startsPackage (tokens : List Token) : Bool :=
  starts "package" (afterAnnotations tokens.length tokens)

/-- Whether a module declaration begins here, annotations included. -/
def startsModule (tokens : List Token) : Bool :=
  let tokens := afterAnnotations tokens.length tokens
  let tokens := if starts "open" tokens then tokens.drop 1 else tokens
  starts "module" tokens && startsWith (·.isWord) (tokens.drop 1) &&
    starts "\x7b" (afterName (tokens.drop 1))

/-- Whether array brackets begin here, annotations included. -/
def startsDimensions (tokens : List Token) : Bool :=
  let tokens := afterAnnotations tokens.length tokens
  starts "[" tokens && second "]" tokens

/-- Whether the label of a switch begins here. -/
def startsLabel (tokens : List Token) : Bool := starts "case" tokens || starts "default" tokens

/-- The number of tokens up to the end of a part that makes no sense: behind the semicolon or before
the brace that ends it. There is no end where the source is cut off. -/
def faultLength? (depth : Nat) : List Token → Option Nat
  | [] => none
  | token :: rest =>
    -- the ends only count outside brackets that were opened on the way
    if token.is ";" && depth = 0 then some 1
    else if token.is "\x7d" && depth = 0 then some 0
    else
      let depth :=
        if token.is "(" || token.is "[" || token.is "\x7b" then depth + 1
        else if token.is ")" || token.is "]" || token.is "\x7d" then depth - 1
        else depth
      (faultLength? depth rest).map (· + 1)

end Ahead

end DocGraph.Java
