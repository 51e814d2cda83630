import DocGraph.Text.Blank
import DocGraph.Text.Digit

/-!
# Tags of a documentation comment

A tag is written `@p-type content`, where `p` is the prefix of the project. Its content runs up to
the next `@p-`, or to the end of the comment. At least one character belongs to the content, so a
marker that follows a tag at once is content of that tag.

Content is cleaned of the stars that decorate comment lines at its two ends. The first date in
brackets becomes the timestamp of the tag and is taken out.
-/

namespace DocGraph

inductive TagType
  | rule
  | decision
  | context
  | graphIgnore
  | graph
deriving DecidableEq, Repr

namespace TagType

/-- The name of a kind as it is written. -/
def name : TagType → Text
  | .rule => "rule"
  | .decision => "decision"
  | .context => "context"
  | .graphIgnore => "graph-ignore"
  | .graph => "graph"

/-- All kinds. The longer of the two graph kinds comes first, as its name begins with the other. -/
def all : List TagType := [.rule, .decision, .context, .graphIgnore, .graph]

end TagType

/-- The prefix of tags where no other is chosen. -/
def defaultTagPrefix : Text := "aicontext"

/-- The start of every tag with a prefix. -/
def tagMarker (tagPrefix : Text) : Text := '@' :: tagPrefix ++ ['-']

/-- A tag as it is written. -/
def tagText (tagPrefix : Text) (type : Text) : Text := tagMarker tagPrefix ++ type

/-- A tag read from a comment. -/
structure Tag where
  type : TagType
  content : Text
  timestamp : Option Text
deriving DecidableEq, Repr

namespace Tag

/-! ## Cleaning -/

/-- Takes one star off the start, with the blanks behind it. -/
def dropLeadingStar : Text → Text
  | '*' :: rest => Text.trimStart rest
  | t => t

/-- Takes one star off the end, with the blanks before it. -/
def dropTrailingStar (t : Text) : Text :=
  if t.getLast? = some '*' then Text.trimEnd t.dropLast else t

/-- Content without blanks and one star at either end. -/
def clean (t : Text) : Text := dropTrailingStar (dropLeadingStar (Text.trim t))

/-! ## Dates -/

/-- The shape of a date: a decimal digit where it says `d`. -/
def dateShape : Text := "dddd-dd-dd"

/-- Leading characters of the given shape and the rest. -/
def readShape? : Text → Text → Option (Text × Text)
  | [], t => some ([], t)
  | _ :: _, [] => none
  | s :: shape, c :: rest =>
    if (if s = 'd' then isDecimalDigit c else c == s) then
      (readShape? shape rest).map fun (read, after) => (c :: read, after)
    else none

/-- A date in brackets at the start of a text, and what follows it. -/
def readDate? : Text → Option (Text × Text)
  | '[' :: rest =>
    match readShape? dateShape rest with
    | some (date, ']' :: after) => some (date, after)
    | _ => none
  | _ => none

/-- The first date in brackets, and the text without it and the blanks behind it. -/
def takeDate? : Text → Option (Text × Text)
  | [] => none
  | c :: rest =>
    match readDate? (c :: rest) with
    | some (date, after) => some (date, Text.trimStart after)
    | none => (takeDate? rest).map fun (date, others) => (date, c :: others)

/-- The tag of a kind with raw content. -/
def ofRaw (type : TagType) (raw : Text) : Tag :=
  -- the date is looked for after cleaning, so a star may stand before it
  let content := clean raw
  match takeDate? content with
  | some (date, others) => ⟨type, others, some date⟩
  | none => ⟨type, content, none⟩

/-! ## Markers -/

/-- The kind of a tag and the text behind it, with the blanks that must follow. -/
def readType? (t : Text) : Option (TagType × Text) :=
  TagType.all.findSome? fun type =>
    match Text.after? type.name t with
    | some (c :: rest) => if isBlank c then some (type, c :: rest) else none
    | _ => none

/-- Whether content ends here: at a marker, at the end, or before a line feed that is the last
character. -/
def atContentEnd (marker : Text) (t : Text) : Bool :=
  t.isEmpty || t = ['\n'] || Text.startsWith marker t

/-- The characters up to where content ends, and the rest. -/
def spanContent (marker : Text) : Text → Text × Text
  | [] => ([], [])
  | c :: rest =>
    if atContentEnd marker (c :: rest) then ([], c :: rest)
    else
      let (content, after) := spanContent marker rest
      (c :: content, after)

/-- The raw content behind the kind of a tag, and the rest. Its first character is the first that is
not blank; where there is none, it is the last of at least two blanks. -/
def readContent? (marker : Text) (t : Text) : Option (Text × Text) :=
  match Text.trimStart t with
  | c :: rest =>
    let (content, after) := spanContent marker rest
    some (c :: content, after)
  -- all that follows is blank; the last blank is then the content, and one must stand before it
  | [] =>
    match t with
    | _ :: next :: rest => ((next :: rest).getLast?).map fun c => ([c], [])
    | _ => none

/-- The tag at the start of a text, if there is one, and the text behind it. -/
def readTag? (marker : Text) (t : Text) : Option (Tag × Text) := do
  let rest ← Text.after? marker t
  let (type, rest) ← readType? rest
  let (raw, after) ← readContent? marker rest
  pure (ofRaw type raw, after)

/-- The tags of a text, read in at most as many steps as it has characters. -/
def readSteps (marker : Text) : Nat → Text → List Tag
  | 0, _ => []
  | _ + 1, [] => []
  | steps + 1, c :: rest =>
    match readTag? marker (c :: rest) with
    -- reading goes on behind the tag, so no tag is read inside another
    | some (tag, after) => tag :: readSteps marker steps after
    | none => readSteps marker steps rest

end Tag

/-- The tags of a comment, in the order in which they are written. -/
def readTags (tagPrefix : Text) (comment : Text) : List Tag :=
  Tag.readSteps (tagMarker tagPrefix) comment.length comment

/-- The names that an ignore list exempts: its trimmed items between commas, each once. -/
def ignoredNames (content : Text) : List Text :=
  (((Text.pieces (· == ',') content).map Text.trim).filter (!·.isEmpty)).eraseDups

end DocGraph
