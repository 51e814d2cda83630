import DocGraph.Text.Blank

/-!
# Text on a screen

Before a text is shown, a word between colons that names a picture is replaced by that picture, and
the control characters that would move the cursor are dropped. A tab moves on to the next column
that is a multiple of eight, where a character may take no column, one or two.

Which pictures there are is up to the screen. Unless said otherwise, a screen has those with numbers
for names: text about source files puts numbers of lines between colons.
-/

namespace DocGraph.Screen

/-- The pictures of a screen by their names. -/
class Pictures where
  named? : Text → Option Text
  colonless : ∀ {name picture}, named? name = some picture → ':' ∉ picture

/-- The pictures that have numbers for names. -/
def numberedPictures : List (String × Char) :=
  [("100", Char.ofNat 0x1F4AF), ("1234", Char.ofNat 0x1F522)]

instance : Pictures where
  named? name := (numberedPictures.find? (·.1.toList = name)).map fun found => [found.2]
  colonless := by
    intro name picture h
    obtain ⟨found, hfound, rfl⟩ := Option.map_eq_some_iff.1 h
    have hall : ∀ found ∈ numberedPictures, ':' ∉ [found.2] := by decide
    exact hall found (List.mem_of_find?_eq_some hfound)

/-- The character that asks for a picture to be shown in colour or as text. -/
def variants : List (String × Char) :=
  [("-emoji", Char.ofNat 0xFE0F), ("-text", Char.ofNat 0xFE0E)]

/-- The picture that the text between two colons stands for, with the variant that it asks for. -/
def pictureOf? [Pictures] (body : Text) : Option Text :=
  match variants.find? fun variant => Text.endsWith variant.1.toList body with
  | some variant =>
    (Pictures.named? (body.take (body.length - variant.1.length))).map (· ++ [variant.2])
  | none => Pictures.named? body

/-- The text up to a colon that no blank comes before, and what follows the colon. -/
def untilColon? : Text → Option (Text × Text)
  | [] => none
  | c :: rest =>
    if c = ':' then some ([], rest)
    else if isBlank c then none
    else (untilColon? rest).map fun (body, after) => (c :: body, after)

/-- Replaces the names of pictures in at most some number of steps. -/
def replaceSteps [Pictures] : Nat → Text → Text
  | 0, t => t
  | _ + 1, [] => []
  | steps + 1, c :: rest =>
    if c = ':' then
      match untilColon? rest with
      -- the second colon is used up, whether or not the word names a picture
      | some (body, after) =>
        (pictureOf? body).getD (':' :: body ++ [':']) ++ replaceSteps steps after
      | none => ':' :: replaceSteps steps rest
    else c :: replaceSteps steps rest

/-- The text with pictures in place of their names. A colon belongs to one name only. -/
def replacePictures [Pictures] (t : Text) : Text := replaceSteps (t.length + 1) t

/-- Whether a control character would move the cursor. -/
def movesCursor (c : Char) : Bool := c.toNat ∈ [7, 8, 11, 12, 13]

/-- A piece of text as it is shown. -/
def shown [Pictures] (t : Text) : Text := (replacePictures t).filter (!movesCursor ·)

/-! ## Columns -/

/-- The characters that take two columns. -/
def wideRanges : List CodeRange :=
  [⟨0x1100, 0x115F⟩, ⟨0x2E80, 0x303E⟩, ⟨0x3041, 0x33FF⟩, ⟨0x3400, 0x4DBF⟩, ⟨0x4E00, 0xA4CF⟩,
    ⟨0xA960, 0xA97C⟩, ⟨0xAC00, 0xD7A3⟩, ⟨0xF900, 0xFAFF⟩, ⟨0xFE10, 0xFE19⟩, ⟨0xFE30, 0xFE6F⟩,
    ⟨0xFF01, 0xFF60⟩, ⟨0xFFE0, 0xFFE6⟩, ⟨0x1F300, 0x1F64F⟩, ⟨0x1F680, 0x1F6FF⟩, ⟨0x1F900, 0x1F9FF⟩,
    ⟨0x20000, 0x3FFFD⟩]

/-- The characters that take no column. -/
def thinRanges : List CodeRange :=
  [⟨0x00, 0x1F⟩, ⟨0x7F, 0x9F⟩, ⟨0x300, 0x36F⟩, ⟨0x483, 0x489⟩, ⟨0x591, 0x5BD⟩, ⟨0x64B, 0x65F⟩,
    ⟨0x200B, 0x200F⟩, ⟨0x2028, 0x202E⟩, ⟨0x20D0, 0x20F0⟩, ⟨0xFE00, 0xFE0F⟩, ⟨0xFE20, 0xFE2F⟩]

/-- The number of columns of a character. -/
def columns (c : Char) : Nat := if inTable wideRanges c then 2 else if inTable thinRanges c then 0 else 1

def tabWidth : Nat := 8

/-- A line without tabs, from a column on. -/
def expandFrom (column : Nat) : Text → Text
  | [] => []
  | c :: rest =>
    if c = '\t' then
      let width := tabWidth - column % tabWidth
      List.replicate width ' ' ++ expandFrom (column + width) rest
    else c :: expandFrom (column + columns c) rest

/-- The lines of a text without tabs. -/
def lines (t : Text) : List Text := (Text.pieces (· = '\n') t).map (expandFrom 0)

/-- Lines one below the other. -/
def stack (lines : List Text) : Text := lines.flatMap (· ++ ['\n'])

end DocGraph.Screen
