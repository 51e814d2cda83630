import DocGraph.Text.Blank

/-!
# Lexemes of Java

A source is cut into lexemes. Each keeps the blanks before it, so the lexemes put together are the
source, but for blanks at its end. Comments are lexemes too. A lexeme also knows its line; only line
feeds count.

A string may hold expressions between `\{` and `}`. Such a string is cut into the pieces outside the
expressions and the lexemes inside them.
-/

namespace DocGraph.Java

/-- The kinds of lexemes. A word is a name or a keyword. -/
inductive LexemeKind
  | word
  | number
  | literal
  | mark
  | lineComment
  | blockComment
deriving DecidableEq, Repr

/-- A unit of a source. -/
structure Lexeme where
  kind : LexemeKind
  line : Nat
  gap : Text
  text : Text
deriving DecidableEq, Repr

namespace Lexeme

def isComment (x : Lexeme) : Bool := x.kind == .lineComment || x.kind == .blockComment

/-! ## Character classes -/

/-- Whether a character can begin a word: an ASCII letter, an underscore, a dollar sign, or any
character beyond ASCII that is not blank. -/
def isWordStart (c : Char) : Bool :=
  c.isAlpha || c = '_' || c = '$' || (0x80 ≤ c.toNat && !isBlank c)

/-- Whether a character can continue a word. -/
def isWordPart (c : Char) : Bool := isWordStart c || c.isDigit

/-- Whether a character can continue a number. -/
def isNumberPart (c : Char) : Bool := c.isAlphanum || c = '_' || c = '.'

/-! ## Pieces -/

/-- Splits a text behind the first `*/`, or at its end. -/
def spanBlockComment : Text → Text × Text
  | [] => ([], [])
  | '*' :: '/' :: rest => (['*', '/'], rest)
  | c :: rest =>
    let (comment, after) := spanBlockComment rest
    (c :: comment, after)

/-- How a piece of a string ends. -/
inductive StringEnd
  | quotes
  | expression
  | source
deriving DecidableEq, Repr

/-- Splits the body of a string where it ends or where an expression begins. A string between three
quotes ends at three quotes, any other at one. A backslash takes the next character with it. -/
def spanString (triple : Bool) : Text → Text × Text × StringEnd
  | [] => ([], [], .source)
  | '\\' :: '\x7b' :: rest => ([], '\\' :: '\x7b' :: rest, .expression)
  | '\\' :: c :: rest =>
    let (body, after) := spanString triple rest
    ('\\' :: c :: body, after)
  -- three quotes end a string of the short kind at the first of them; the others begin a new one
  | '"' :: '"' :: '"' :: rest =>
    if triple then (['"', '"', '"'], rest, .quotes) else (['"'], '"' :: '"' :: rest, .quotes)
  | c :: rest =>
    if c = '"' && !triple then (['"'], rest, .quotes)
    else
      let (body, after) := spanString triple rest
      (c :: body, after)

/-- Splits a text behind the quote that closes a character, or at its end. -/
def spanCharacter : Text → Text × Text
  | [] => ([], [])
  | '\\' :: c :: rest =>
    let (body, after) := spanCharacter rest
    ('\\' :: c :: body, after)
  | c :: rest =>
    if c = '\'' then (['\''], rest)
    else
      let (body, after) := spanCharacter rest
      (c :: body, after)

/-- The marks of more than one character, each before its own beginnings. -/
def longMarks : List Text := ["...", "->", "--", "-=", "++", "::"]

/-! ## The cut -/

/-- What encloses the place that is being read: a string, or an expression in a string with the
number of braces open in it. -/
inductive Context
  | string (triple : Bool)
  | expression (braces : Nat)
deriving DecidableEq, Repr

/-- The contexts behind a mark: braces of an expression in a string are counted, as the one that
closes it leads back into the string. -/
def contextsAfter (mark : Text) (contexts : List Context) : List Context :=
  match contexts with
  | .expression braces :: outer =>
    if mark = ['\x7b'] then .expression (braces + 1) :: outer
    else if mark = ['\x7d'] then
      if braces = 0 then outer else .expression (braces - 1) :: outer
    else contexts
  | _ => contexts

/-- A lexeme without its place: kind, text, the rest of the source and the contexts there. -/
abbrev Cut := LexemeKind × Text × Text × List Context

/-- The next piece of a string whose opening quotes have been read. -/
def cutString (opening : Text) (triple : Bool) (t : Text) (outer : List Context) : Cut :=
  match spanString triple t with
  | (body, rest, .expression) => (.literal, opening ++ body, rest, .string triple :: outer)
  | (body, rest, _) => (.literal, opening ++ body, rest, outer)

/-- The next lexeme outside strings. The text begins with `c`, which is not blank. -/
def cutCode (c : Char) (rest : Text) (contexts : List Context) : Cut :=
  let t := c :: rest
  if Text.startsWith "//" t then
    (.lineComment, t.takeWhile (· ≠ '\n'), t.dropWhile (· ≠ '\n'), contexts)
  else if Text.startsWith "/*" t then
    let (comment, after) := spanBlockComment (t.drop 2)
    (.blockComment, '/' :: '*' :: comment, after, contexts)
  else if Text.startsWith ['"', '"', '"'] t then cutString ['"', '"', '"'] true (t.drop 3) contexts
  else if c = '"' then cutString ['"'] false rest contexts
  else if c = '\'' then
    let (body, after) := spanCharacter rest
    (.literal, c :: body, after, contexts)
  else if c.isDigit || (c = '.' && (rest.head?.map Char.isDigit).getD false) then
    (.number, t.takeWhile isNumberPart, t.dropWhile isNumberPart, contexts)
  else if isWordStart c then
    let word := t.takeWhile isWordPart
    let after := t.dropWhile isWordPart
    -- the only keyword with a hyphen in it
    if word = "non".toList && Text.startsWith "-sealed" after then
      (.word, "non-sealed", after.drop 7, contexts)
    else (.word, word, after, contexts)
  else
    -- a mark of several characters is never a brace, so the contexts stay
    match longMarks.find? (Text.startsWith · t) with
    | some mark => (.mark, mark, t.drop mark.length, contexts)
    | none => (.mark, [c], rest, contextsAfter [c] contexts)

/-- The next lexeme of a text that is not empty and begins with `c`. -/
def cut (c : Char) (rest : Text) (contexts : List Context) : Cut :=
  match contexts with
  | .string triple :: outer =>
    if c = '\\' ∧ rest.head? = some '\x7b' then
      (.mark, ['\\', '\x7b'], rest.drop 1, .expression 0 :: .string triple :: outer)
    else cutString [] triple (c :: rest) outer
  | _ => cutCode c rest contexts

/-- Whether blanks separate lexemes here; in a string they are part of it. -/
def skipsBlanks : List Context → Bool
  | .string _ :: _ => false
  | _ => true

/-- The number of line feeds in a text. -/
def lineFeeds (t : Text) : Nat := t.count '\n'

/-- The lexemes of a text from a line on, read in a given number of steps. -/
def cutSteps : Nat → Nat → List Context → Text → List Lexeme
  | 0, _, _, _ => []
  | steps + 1, line, contexts, t =>
    let gap := if skipsBlanks contexts then t.takeWhile isBlank else []
    let line := line + lineFeeds gap
    -- the line of a lexeme is where it begins, so the line feeds in it count for the next one
    match t.drop gap.length with
    | [] => []
    | c :: rest =>
      let (kind, text, after, contexts) := cut c rest contexts
      ⟨kind, line, gap, text⟩ :: cutSteps steps (line + lineFeeds text) contexts after

end Lexeme

/-- A byte order mark at the start of a source is not part of it. -/
def withoutMark : Text → Text
  | c :: rest => if c.toNat = 0xFEFF then rest else c :: rest
  | [] => []

/-- The lexemes of a source. -/
def lexemes (source : Text) : List Lexeme :=
  Lexeme.cutSteps (source.length + 1) 1 [] (withoutMark source)

end DocGraph.Java
