import DocGraph.Text.Basic

/-!
# White space

The blank characters are those of the Unicode white space property and the four information
separators U+001C to U+001F. The zero width space and the byte order mark are not blank.

`trim` removes blanks at both ends of a text and nothing else.
-/

namespace DocGraph

/-- The ranges of blank characters. -/
def blankRanges : List CodeRange :=
  [⟨0x09, 0x0D⟩, ⟨0x1C, 0x20⟩, ⟨0x85, 0x85⟩, ⟨0xA0, 0xA0⟩, ⟨0x1680, 0x1680⟩, ⟨0x2000, 0x200A⟩,
    ⟨0x2028, 0x2029⟩, ⟨0x202F, 0x202F⟩, ⟨0x205F, 0x205F⟩, ⟨0x3000, 0x3000⟩]

/-- Whether a character is white space. -/
def isBlank (c : Char) : Bool := inTable blankRanges c

namespace Text

/-- The text without its leading blanks. -/
def trimStart (t : Text) : Text := t.dropWhile isBlank

/-- The text without its trailing blanks. -/
def trimEnd : Text → Text
  | [] => []
  | c :: rest =>
    match trimEnd rest with
    | [] => if isBlank c then [] else [c]
    | d :: more => c :: d :: more

/-- The text without the blanks at its ends. -/
def trim (t : Text) : Text := trimEnd (trimStart t)

/-- Whether a text holds blanks only. -/
def allBlank (t : Text) : Bool := t.all isBlank

theorem trimEnd_eq_nil_iff {t : Text} : trimEnd t = [] ↔ t.all isBlank = true := by
  induction t with
  | nil => simp [trimEnd]
  | cons c rest ih =>
    unfold trimEnd
    split
    · next h =>
      have hrest := ih.1 h
      cases hc : isBlank c <;> simp [hc, hrest]
    · next d more h =>
      have hne : ¬ rest.all isBlank = true := fun hall => by simp [ih.2 hall] at h
      simp [hne]

end Text

end DocGraph
