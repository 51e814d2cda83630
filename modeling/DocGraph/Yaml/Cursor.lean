import DocGraph.Text.Basic

/-!
# A place in a YAML text

A cursor is what is left of a text together with the place reached in it. Past the end it shows the
character NUL, which no YAML text may hold, so that looking ahead never fails.

Line breaks are LF, CR, CR LF, U+0085, U+2028 and U+2029. All but the last two are read as LF.
-/

namespace DocGraph.Yaml

/-- The rest of a text and the place where it starts. -/
structure Cursor where
  rest : Text
  index : Nat
  line : Nat
  column : Nat
deriving DecidableEq, Repr

/-- What is wrong with a text that cannot be loaded. Most faults are against the format; the others
concern a scalar whose form is right and whose value is not. -/
inductive Fault
  | malformed
  | valueOutOfRange
  | noDigits
  | unknownWord
  | noTimestamp
deriving DecidableEq, Repr

/-- The character that stands for the end of a text. -/
def endMark : Char := '\x00'

/-- Whether a character is a line break. -/
def isBreak (c : Char) : Bool :=
  c ∈ ['\r', '\n', Char.ofNat 0x85, Char.ofNat 0x2028, Char.ofNat 0x2029]

/-- Whether a character is a line break or the end. -/
def isBreakOrEnd (c : Char) : Bool := c = endMark || isBreak c

/-- Whether a character is a space, a line break or the end. -/
def isSpaceOrEnd (c : Char) : Bool := c = ' ' || isBreakOrEnd c

/-- Whether a character is a space, a tab, a line break or the end. -/
def isGap (c : Char) : Bool := c = '\t' || isSpaceOrEnd c

/-- Whether a character may stand in the name of an anchor or a directive. -/
def isNameChar (c : Char) : Bool := c.isAlphanum || c = '-' || c = '_'

def byteOrderMark : Char := Char.ofNat 0xFEFF

/-- The characters that a YAML text may hold. -/
def allowedRanges : List CodeRange :=
  [⟨0x09, 0x0A⟩, ⟨0x0D, 0x0D⟩, ⟨0x20, 0x7E⟩, ⟨0x85, 0x85⟩, ⟨0xA0, 0xD7FF⟩, ⟨0xE000, 0xFFFD⟩,
    ⟨0x10000, 0x10FFFF⟩]

namespace Cursor

def start (t : Text) : Cursor := ⟨t, 0, 0, 0⟩

/-- The character `ahead` places further on. -/
def peekAt (cursor : Cursor) (ahead : Nat) : Char := (cursor.rest.drop ahead).headD endMark

/-- The next character. -/
def peek (cursor : Cursor) : Char := cursor.rest.headD endMark

/-- The cursor one character further on. A byte order mark takes no column. -/
def next (cursor : Cursor) : Cursor :=
  match cursor.rest with
  | [] => cursor
  | c :: rest =>
    -- of CR LF only the second character ends the line
    if isBreak c && !(c = '\r' && rest.head? = some '\n') then
      ⟨rest, cursor.index + 1, cursor.line + 1, 0⟩
    else
      ⟨rest, cursor.index + 1, cursor.line,
        if c = byteOrderMark then cursor.column else cursor.column + 1⟩

/-- The cursor some characters further on. -/
def skip (cursor : Cursor) : Nat → Cursor
  | 0 => cursor
  | n + 1 => cursor.next.skip n

/-- The characters up to the first that does not satisfy `p`, and the cursor there. -/
def span (cursor : Cursor) (p : Char → Bool) : Text × Cursor :=
  let taken := cursor.rest.takeWhile p
  (taken, cursor.skip taken.length)

/-- The cursor at the first character that does not satisfy `p`. -/
def skipWhile (cursor : Cursor) (p : Char → Bool) : Cursor := (cursor.span p).2

/-- Reads a line break, if there is one. -/
def lineBreak? (cursor : Cursor) : Option (Char × Cursor) :=
  let c := cursor.peek
  if c = '\r' && cursor.peekAt 1 = '\n' then some ('\n', cursor.skip 2)
  else if c = Char.ofNat 0x2028 || c = Char.ofNat 0x2029 then some (c, cursor.next)
  else if isBreak c then some ('\n', cursor.next)
  else none

/-- The cursor behind a line break, if there is one. -/
def skipBreak (cursor : Cursor) : Cursor :=
  match cursor.lineBreak? with
  | some (_, cursor) => cursor
  | none => cursor

/-- The cursor behind spaces and a comment. -/
def skipComment (cursor : Cursor) : Cursor :=
  let cursor := cursor.skipWhile (· = ' ')
  if cursor.peek = '#' then cursor.skipWhile (!isBreakOrEnd ·) else cursor

/-- Whether the cursor stands at three equal characters and a gap. -/
def isAtMarker (cursor : Cursor) (c : Char) : Bool :=
  cursor.rest.take 3 = [c, c, c] && isGap (cursor.peekAt 3)

/-- Whether the cursor stands at the marker between documents or at the end of one. -/
def isAtSeparator (cursor : Cursor) : Bool := cursor.isAtMarker '-' || cursor.isAtMarker '.'

end Cursor

end DocGraph.Yaml
