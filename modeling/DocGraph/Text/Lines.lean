import DocGraph.Text.Basic

/-!
# Lines

A line ends at a line feed, carriage return, vertical tab, form feed, one of the separators U+001C
to U+001E, U+0085, U+2028 or U+2029. A carriage return and a line feed after it are one line end.
The last line needs no end, so a text that ends in a line end has no empty line after it.
-/

namespace DocGraph

/-- The characters that end a line. -/
def lineEndRanges : List CodeRange :=
  [⟨0x0A, 0x0D⟩, ⟨0x1C, 0x1E⟩, ⟨0x85, 0x85⟩, ⟨0x2028, 0x2029⟩]

def isLineEnd (c : Char) : Bool := inTable lineEndRanges c

namespace Text

/-- Put a character in front of the first line, which is opened if there is none. -/
def consLine (c : Char) : List Text → List Text
  | [] => [[c]]
  | line :: more => (c :: line) :: more

/-- The lines of a text without their line ends. -/
def lines : Text → List Text
  | [] => []
  | '\r' :: '\n' :: rest => [] :: lines rest
  | c :: rest => if isLineEnd c then [] :: lines rest else consLine c (lines rest)

end Text

end DocGraph
