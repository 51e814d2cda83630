import DocGraph.Text.Basic

/-!
# Glob patterns

In a pattern a star stands for any text, slashes included, a question mark for any character, and
square brackets for one character of a class. A class that begins with an exclamation mark holds the
characters not listed, a closing bracket in first place is listed, and a hyphen between two
characters lists the range between them. A bracket that is never closed stands for itself.

`Glob.parse` reads a pattern and `Glob.accepts` matches it against a whole text.
-/

namespace DocGraph

/-- A unit of a glob pattern. -/
inductive GlobPart
  | anyText
  | anyChar
  | char (c : Char)
  | oneOf (negated : Bool) (ranges : List CodeRange)
deriving DecidableEq, Repr

/-- A glob pattern. -/
abbrev Glob := List GlobPart

namespace Glob

/-- Cuts the content of a class at the hyphens that can stand between two ends of a range. The next
hyphen that counts stands at least `guard` characters further on; after a hyphen that counts, the
character behind it and the one after that cannot be such a hyphen. -/
def classChunks (guard : Nat) : Text → List Text
  | [] => [[]]
  | c :: rest =>
    if guard = 0 && c = '-' then [] :: classChunks 2 rest
    else
      match classChunks (guard - 1) rest with
      | [] => [[c]]
      | chunk :: more => (c :: chunk) :: more

/-- A hyphen at the very end of a class is a listed character. -/
def keepLastHyphen : List Text → List Text
  | [] => []
  | [chunk, []] => [chunk ++ ['-']]
  | chunk :: more => chunk :: keepLastHyphen more

/-- Drops the ranges that would run backwards, from the last one to the first, together with their
two ends. -/
def dropEmptyRanges : List Text → List Text
  | [] => []
  | chunk :: more =>
    match dropEmptyRanges more with
    | [] => [chunk]
    | next :: rest =>
      match chunk.getLast?, next with
      | some low, high :: tail =>
        -- the chunks on both sides grow together, and the next hyphen to the left sees the result
        if high.toNat < low.toNat then (chunk.dropLast ++ tail) :: rest else chunk :: next :: rest
      | _, _ => chunk :: next :: rest

/-- One range for each character. -/
def singles (t : Text) : List CodeRange := t.map fun c => ⟨c.toNat, c.toNat⟩

/-- The ranges that chunks joined by range hyphens list. -/
def chunkRanges : List Text → List CodeRange
  | [] => []
  | [chunk] => singles chunk
  | chunk :: next :: rest =>
    match chunk.getLast?, next with
    | some low, high :: _ =>
      -- the ends of the range are listed as characters of their chunks too, which adds nothing
      singles chunk ++ [⟨low.toNat, high.toNat⟩] ++ chunkRanges (next :: rest)
    | _, _ => singles chunk ++ chunkRanges (next :: rest)

/-- Reads the content of a class. -/
def readClass (content : Text) : GlobPart :=
  -- the first listed character is never a range hyphen, nor is the sign in front of it
  let guard := if content.head? = some '!' then 2 else 1
  let chunks :=
    if '-' ∈ content then dropEmptyRanges (keepLastHyphen (classChunks guard content))
    else [content]
  match chunks with
  | ('!' :: chunk) :: more => .oneOf true (chunkRanges (chunk :: more))
  | _ => .oneOf false (chunkRanges chunks)

/-- The content of a class and what follows its closing bracket. -/
def untilClose : Text → Option (Text × Text)
  | [] => none
  | ']' :: rest => some ([], rest)
  | c :: rest => (untilClose rest).map fun (content, after) => (c :: content, after)

/-- Splits the text behind an opening bracket at the bracket that closes the class, if one does. -/
def splitClass : Text → Option (Text × Text)
  -- a closing bracket in first place does not close, with or without the sign
  | '!' :: ']' :: rest => (untilClose rest).map fun (t, after) => ('!' :: ']' :: t, after)
  | '!' :: rest => (untilClose rest).map fun (t, after) => ('!' :: t, after)
  | ']' :: rest => (untilClose rest).map fun (t, after) => (']' :: t, after)
  | rest => untilClose rest

/-- Reads a pattern with as many steps as it has characters. -/
def parseSteps : Nat → Text → Glob
  | 0, _ => []
  | _ + 1, [] => []
  | steps + 1, '*' :: rest => .anyText :: parseSteps steps rest
  | steps + 1, '?' :: rest => .anyChar :: parseSteps steps rest
  | steps + 1, '[' :: rest =>
    match splitClass rest with
    | some (content, after) => readClass content :: parseSteps steps after
    | none => .char '[' :: parseSteps steps rest
  | steps + 1, c :: rest => .char c :: parseSteps steps rest

/-- Reads a pattern. Every text is one. -/
def parse (pattern : Text) : Glob := parseSteps pattern.length pattern

/-- Whether a unit that stands for one character stands for `c`. -/
def partAccepts (part : GlobPart) (c : Char) : Bool :=
  match part with
  | .anyText => false
  | .anyChar => true
  | .char d => c == d
  | .oneOf negated ranges => inTable ranges c != negated

/-! ## Matching

A pattern is matched against all suffixes of a text at once: from the answers for the rest of a
pattern follow those for the pattern itself. So the work is bounded by the size of the pattern times
that of the text, however many stars there are. -/

/-- For each suffix of a text, longest first, whether it is empty. -/
def emptySuffixes : Text → List Bool
  | [] => [true]
  | _ :: rest => false :: emptySuffixes rest

/-- For each place in a list of answers, whether there is a positive one there or later. -/
def someLater : List Bool → List Bool
  | [] => []
  | answer :: rest =>
    let later := someLater rest
    (answer || later.headD false) :: later

/-- The answers for a unit that stands for one character, given those for the rest of the pattern.
-/
def stepAnswers (part : GlobPart) : Text → List Bool → List Bool
  | c :: rest, _ :: answers =>
    (partAccepts part c && answers.headD false) :: stepAnswers part rest answers
  | _, _ => [false]

/-- For each suffix of a text, longest first, whether a pattern matches the whole of it. -/
def answers : Glob → Text → List Bool
  | [], t => emptySuffixes t
  | .anyText :: parts, t => someLater (answers parts t)
  | part :: parts, t => stepAnswers part t (answers parts t)

/-- Whether a pattern matches the whole of a text. -/
def accepts (glob : Glob) (t : Text) : Bool := (answers glob t).headD false

theorem answers_nil (glob : Glob) : ∃ answer, answers glob [] = [answer] := by
  induction glob with
  | nil => exact ⟨true, rfl⟩
  | cons part parts ih =>
    obtain ⟨answer, h⟩ := ih
    cases part <;> simp [answers, h, someLater, stepAnswers]

theorem answers_cons (glob : Glob) (c : Char) (t : Text) :
    ∃ answer, answers glob (c :: t) = answer :: answers glob t := by
  induction glob with
  | nil => exact ⟨false, rfl⟩
  | cons part parts ih =>
    obtain ⟨answer, h⟩ := ih
    cases part <;> simp [answers, h, someLater, stepAnswers]

theorem accepts_nil (t : Text) : accepts [] t = t.isEmpty := by
  cases t <;> rfl

theorem accepts_anyText (parts : Glob) (t : Text) :
    accepts (.anyText :: parts) t = someSuffix (accepts parts) t := by
  induction t with
  | nil =>
    obtain ⟨answer, h⟩ := answers_nil parts
    simp [accepts, answers, h, someLater, someSuffix]
  | cons c t ih =>
    obtain ⟨answer, h⟩ := answers_cons parts c t
    rw [someSuffix, ← ih]
    simp [accepts, answers, h, someLater]

theorem accepts_part_nil {part : GlobPart} (h : part ≠ .anyText) (parts : Glob) :
    accepts (part :: parts) [] = false := by
  obtain ⟨answer, h'⟩ := answers_nil parts
  cases part <;> simp_all [accepts, answers, stepAnswers]

theorem accepts_part_cons {part : GlobPart} (h : part ≠ .anyText) (parts : Glob) (c : Char)
    (t : Text) : accepts (part :: parts) (c :: t) = (partAccepts part c && accepts parts t) := by
  obtain ⟨answer, h'⟩ := answers_cons parts c t
  cases part <;> simp_all [accepts, answers, stepAnswers]

end Glob

end DocGraph
