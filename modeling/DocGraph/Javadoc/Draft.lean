import DocGraph.Javadoc.Entry
import DocGraph.Number.Binary64

/-!
# Entries handed in

An entry may come from outside, where each of its fields may be missing or of a wrong kind. Texts
have to be texts. A line number may also be a truth value, a number without fraction or a text that
spells an integer. `Draft.read?` accepts a draft exactly if all its fields can be used.
-/

namespace DocGraph

/-- The value of a field that was handed in. A decimal is `digits / 10 ^ places`. -/
inductive FieldValue
  | absent
  | null
  | truth (b : Bool)
  | decimal (digits : Int) (places : Nat)
  | text (t : Text)
  | other
deriving DecidableEq, Repr

/-- The fields of an entry as they were handed in. -/
structure Draft where
  location : FieldValue
  file : FieldValue
  line : FieldValue
  level : FieldValue
  type : FieldValue
  content : FieldValue
  timestamp : FieldValue
deriving Repr

namespace FieldValue

def text? : FieldValue → Option Text
  | text t => some t
  | _ => none

/-- The text of a field that may be missing. -/
def optionalText? : FieldValue → Option (Option Text)
  | absent => some none
  | null => some none
  | text t => some (some t)
  | _ => none

/-- A text without a point and zeros behind it. -/
def dropZeroFraction (t : Text) : Text :=
  match t.dropWhile (· ≠ '.') with
  | '.' :: zeros => if zeros.all (· = '0') then t.takeWhile (· ≠ '.') else t
  | _ => t

/-- The integer that a text spells: a sign and ASCII digits, single underscores between two of them,
and perhaps a point and zeros. -/
def spelledInteger? (t : Text) : Option Int :=
  let (negative, digits) := splitSign (dropZeroFraction (Text.trim t))
  if digits.all fun c => isAsciiDigit c || c = '_' then do
    let values ← Text.digitValues? false digits
    if values.length ≤ maxDecimalDigits then some (signed negative (Text.ofDigits 10 values))
    else none
  else none

/-- The integer equal to a number with a fraction part, which has to fit a machine word. -/
def wholeNumber? (digits : Int) (places : Nat) : Option Int := do
  -- the number has been through double precision, so small fractions may be gone
  let n ← (Binary64.ofDecimal (digits < 0) digits.natAbs (-places)).toInteger?
  if n.natAbs < twoTo 63 then some n else none

/-- The integer that a field stands for. -/
def integer? : FieldValue → Option Int
  | truth b => some (if b then 1 else 0)
  | decimal digits places => if places = 0 then some digits else wholeNumber? digits places
  | text t => spelledInteger? t
  | _ => none

end FieldValue

namespace Draft

/-- The entry that a draft describes. -/
def read? (draft : Draft) : Option Entry := do
  let location ← draft.location.text?
  let file ← draft.file.text?
  let line ← draft.line.integer?
  let level ← draft.level.text?.bind Level.ofName?
  let type ← draft.type.text?
  let content ← draft.content.text?
  let timestamp ← draft.timestamp.optionalText?
  pure ⟨location, file, line, level, type, content, timestamp⟩

end Draft

end DocGraph
