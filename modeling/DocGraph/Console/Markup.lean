import DocGraph.Console.Screen
import DocGraph.Text.LetterCase

/-!
# Markup

Text for the console may hold tags in square brackets that set a style, such as `[bold]`, and tags
that end it. A tag begins with a small letter or one of three signs and holds no further opening
bracket; any other bracket is text. An odd number of backslashes in front of a tag makes it text,
and two backslashes there stand for one.

The console has no styles to show, so `plain?` drops the tags. It refuses a tag that ends what was
never begun. `escape` protects a text: shown as markup, its tags appear as they are.
-/

namespace DocGraph.Markup

/-- A part of a text with markup. -/
inductive Part
  | text (t : Text)
  | tag (content : Text)
deriving DecidableEq, Repr

/-- Whether a character can begin the content of a tag. -/
def beginsTag (c : Char) : Bool := c.isLower || c = '#' || c = '/' || c = '@'

/-- The content of a tag behind its opening bracket, and what follows the closing one. -/
def tagContent? : Text → Option (Text × Text)
  | [] => none
  | c :: rest =>
    if beginsTag c then
      let content := rest.takeWhile fun d => d ≠ '[' && d ≠ ']'
      match rest.drop content.length with
      | ']' :: after => some (c :: content, after)
      | _ => none
    else none

/-- A tag at the start of a text: the backslashes in front, the content and what follows. -/
def tagAt? (t : Text) : Option (Nat × Text × Text) :=
  let slashes := (t.takeWhile (· = '\\')).length
  match t.drop slashes with
  | '[' :: rest => (tagContent? rest).map fun (content, after) => (slashes, content, after)
  | _ => none

def bracketed (content : Text) : Text := '[' :: content ++ [']']

/-- The part of plain text that was gathered in reverse, if there is any. -/
def gathered (before : Text) : List Part := if before.isEmpty then [] else [.text before.reverse]

/-- The parts that a tag with backslashes in front makes. -/
def tagParts (slashes : Nat) (content : Text) : List Part :=
  (if slashes < 2 then [] else [.text (List.replicate (slashes / 2) '\\')]) ++
    [if slashes % 2 = 0 then .tag content else .text (bracketed content)]

/-- The parts of a text, given the plain text gathered before it in reverse. -/
def partsFrom (before : Text) : Nat → Text → List Part
  | 0, _ => gathered before
  | _ + 1, [] => gathered before
  | steps + 1, c :: rest =>
    match tagAt? (c :: rest) with
    | some (slashes, content, after) =>
      gathered before ++ tagParts slashes content ++ partsFrom [] steps after
    | none =>
      -- all backslashes of the run go at once, as no tag follows them
      if c = '\\' then
        let run := (c :: rest).takeWhile (· = '\\')
        partsFrom (run ++ before) steps ((c :: rest).drop run.length)
      else partsFrom (c :: before) steps rest

def parts (t : Text) : List Part := partsFrom [] (t.length + 1) t

/-- Plain text in which a backslash before a bracket is not shown. -/
def dropEscapes : Text → Text
  | [] => []
  | '\\' :: '[' :: rest => '[' :: dropEscapes rest
  | c :: rest => c :: dropEscapes rest

/-- The short names of styles and the names they stand for. -/
def shortStyles : List (String × String) :=
  [("b", "bold"), ("d", "dim"), ("i", "italic"), ("u", "underline"), ("uu", "underline2"),
    ("r", "reverse"), ("s", "strike"), ("c", "conceal"), ("o", "overline")]

/-- The name of a style, the same for all its spellings. -/
def styleName (name : Text) : Text :=
  let bare := Text.lower (Text.trim name)
  match shortStyles.find? (·.1.toList = bare) with
  | some found => found.2
  | none => bare

/-- The name in a tag, without its parameters. -/
def tagHead (content : Text) : Text := content.takeWhile (· ≠ '=')

/-- The styles under way after a tag, the latest first, unless the tag ends what was not begun. -/
def applyTag (styles : List Text) (content : Text) : Option (List Text) :=
  match tagHead content with
  | '/' :: name =>
    if (Text.trim name).isEmpty then
      match styles with
      | [] => none
      | _ :: rest => some rest
    else
      let style := styleName name
      if styles.elem style then some (styles.erase style) else none
  | name => some (styleName name :: styles)

/-- The text of parts, given the styles under way. -/
def plainFrom [Screen.Pictures] (styles : List Text) : List Part → Option Text
  | [] => some []
  | .text t :: rest => (plainFrom styles rest).map (Screen.shown (dropEscapes t) ++ ·)
  | .tag content :: rest => do
    let styles ← applyTag styles content
    plainFrom styles rest

/-- The text as it is shown without styles. -/
def plain? [Screen.Pictures] (t : Text) : Option Text := plainFrom [] (parts t)

/-- Doubles the backslashes before each tag and adds one. -/
def escapeSteps : Nat → Text → Text
  | 0, t => t
  | _ + 1, [] => []
  | steps + 1, c :: rest =>
    match tagAt? (c :: rest) with
    | some (slashes, content, after) =>
      List.replicate (2 * slashes + 1) '\\' ++ bracketed content ++ escapeSteps steps after
    | none =>
      if c = '\\' then
        let run := (c :: rest).takeWhile (· = '\\')
        run ++ escapeSteps steps ((c :: rest).drop run.length)
      else c :: escapeSteps steps rest

/-- Whether a text ends in a single backslash. -/
def endsInSlash (t : Text) : Bool := Text.endsWith ['\\'] t && !Text.endsWith ['\\', '\\'] t

/-- The text protected against being read as markup. A single backslash at its end is doubled, so
that it cannot act on what follows. -/
def escape (t : Text) : Text :=
  let escaped := escapeSteps (t.length + 1) t
  if endsInSlash escaped then escaped ++ ['\\'] else escaped

end DocGraph.Markup
