/-!
# Text

Every reader of this library recurses on characters, so a text is the list of them. A `String`
literal stands for its characters wherever a text is expected.

A character class given by a standard is a table of closed code point ranges. `Char.isIn` looks a
character up in such a table.
-/

namespace DocGraph

/-- A text is the list of its characters. -/
abbrev Text := List Char

instance : Coe String Text := ⟨String.toList⟩

/-- A closed range of code points. -/
structure CodeRange where
  first : Nat
  last : Nat
deriving DecidableEq, Repr

namespace CodeRange

/-- Membership of a code point in the range, both ends included. -/
def has (range : CodeRange) (code : Nat) : Bool :=
  range.first ≤ code && code ≤ range.last

end CodeRange

/-- Whether a character belongs to one of the ranges of a table. -/
def inTable (table : List CodeRange) (c : Char) : Bool :=
  table.any (·.has c.toNat)

/-- Whether some suffix of a list, the list itself included, satisfies `p`. -/
def someSuffix {α : Type} (p : List α → Bool) : List α → Bool
  | [] => p []
  | a :: rest => p (a :: rest) || someSuffix p rest

theorem someSuffix_iff {α : Type} {p : List α → Bool} {l : List α} :
    someSuffix p l = true ↔ ∃ before after, l = before ++ after ∧ p after = true := by
  induction l with
  | nil =>
    constructor
    · exact fun h => ⟨[], [], rfl, h⟩
    · rintro ⟨before, after, h, hp⟩
      rw [(List.append_eq_nil_iff.1 h.symm).2] at hp
      exact hp
  | cons a rest ih =>
    simp only [someSuffix, Bool.or_eq_true, ih]
    constructor
    · rintro (h | ⟨before, after, rfl, h⟩)
      · exact ⟨[], a :: rest, rfl, h⟩
      · exact ⟨a :: before, after, rfl, h⟩
    · rintro ⟨before, after, h, hp⟩
      cases before with
      | nil => exact .inl (by rw [h]; exact hp)
      | cons b before =>
        simp only [List.cons_append, List.cons.injEq] at h
        exact .inr ⟨before, after, h.2, hp⟩

namespace Text

/-- Literals as texts. -/
def ofStrings (literals : List String) : List Text := literals.map String.toList

/-- Texts put together into one. -/
def phrase (parts : List Text) : Text := parts.flatten

/-- The pieces of a text between the characters that satisfy `isSeparator`, empty pieces
included. There is always at least one piece. -/
def pieces (isSeparator : Char → Bool) : Text → List Text
  | [] => [[]]
  | c :: rest =>
    if isSeparator c then [] :: pieces isSeparator rest
    else
      match pieces isSeparator rest with
      | [] => [[c]]
      | piece :: more => (c :: piece) :: more

theorem pieces_ne_nil (isSeparator : Char → Bool) (t : Text) : pieces isSeparator t ≠ [] := by
  induction t with
  | nil => simp [pieces]
  | cons c rest ih =>
    unfold pieces
    split
    · simp
    · split <;> simp

/-- The texts in order with `separator` between each two. -/
def join (separator : Text) : List Text → Text
  | [] => []
  | [t] => t
  | t :: more => t ++ separator ++ join separator more

/-- What follows `start` in a text that begins with it. -/
def after? (start : Text) (t : Text) : Option Text :=
  match start, t with
  | [], t => some t
  | _ :: _, [] => none
  | a :: start, b :: t => if a = b then after? start t else none

theorem after?_eq_some_iff {start t rest : Text} :
    after? start t = some rest ↔ t = start ++ rest := by
  induction start generalizing t with
  | nil => simp [after?]
  | cons a start ih =>
    cases t with
    | nil => simp [after?]
    | cons b t =>
      simp only [after?, List.cons_append, List.cons.injEq]
      split
      · next h => simp [h, ih]
      · next h => simp [Ne.symm h]

def startsWith (start : Text) (t : Text) : Bool := (after? start t).isSome

theorem startsWith_iff {start t : Text} : startsWith start t = true ↔ start <+: t := by
  rw [startsWith, Option.isSome_iff_exists]
  simp only [after?_eq_some_iff]
  exact ⟨fun ⟨rest, h⟩ => ⟨rest, h.symm⟩, fun ⟨rest, h⟩ => ⟨rest, h.symm⟩⟩

/-- Whether a text ends with `ending`. -/
def endsWith (ending : Text) (t : Text) : Bool := startsWith ending.reverse t.reverse

/-- Code point order on texts, as a Boolean "at most". -/
def le : Text → Text → Bool
  | [], _ => true
  | _ :: _, [] => false
  | a :: s, b :: t => a.toNat < b.toNat || (a == b && le s t)

/-- The texts in ascending code point order, equal ones kept. -/
def sort (texts : List Text) : List Text := texts.mergeSort le

end Text

end DocGraph
