import DocGraph.Text.Blank
import DocGraph.Text.Digit

/-!
# Integers in decimal

An integer is written with a sign only if it is negative. It is read more freely: blanks around it
count for nothing, either sign is allowed, the digits of every script are taken, and one underscore
may stand between two digits. Numbers of more than 4300 digits are refused.
-/

namespace DocGraph

namespace Text

/-- Whether a character may stand around a number. The information separators may not. -/
def isNumberMargin (c : Char) : Bool := isBlank c && !(0x1C ≤ c.toNat && c.toNat ≤ 0x1F)

/-- The text without the margin around a number. -/
def trimNumber (t : Text) : Text :=
  ((t.dropWhile isNumberMargin).reverse.dropWhile isNumberMargin).reverse

/-- The values of digits in which single underscores may stand between two digits. The flag tells
whether a digit came just before. -/
def digitValues? (afterDigit : Bool) : Text → Option (List Nat)
  | [] => if afterDigit then some [] else none
  | '_' :: rest => if afterDigit && !rest.isEmpty then digitValues? false rest else none
  | c :: rest => do
    let value ← digitValue? c
    let values ← digitValues? true rest
    pure (value :: values)

/-- The number that digits in a base denote. -/
def ofDigits (base : Nat) (digits : List Nat) : Nat :=
  digits.foldl (fun n digit => n * base + digit) 0

end Text

def twoTo (k : Nat) : Nat := Nat.pow 2 k

def tenTo (k : Nat) : Nat := Nat.pow 10 k

/-- The most digits that a number in decimal may have. -/
def maxDecimalDigits : Nat := 4300

/-- The sign in front of a number, `true` for minus, and the rest. -/
def splitSign : Text → Bool × Text
  | '-' :: rest => (true, rest)
  | '+' :: rest => (false, rest)
  | t => (false, t)

/-- An integer from its sign and magnitude. -/
def signed (negative : Bool) (n : Nat) : Int := if negative then -(n : Int) else n

/-- Reads an integer in decimal. -/
def readInteger? (t : Text) : Option Int := do
  let (negative, digits) := splitSign (Text.trimNumber t)
  let values ← Text.digitValues? false digits
  if values.length ≤ maxDecimalDigits then pure (signed negative (Text.ofDigits 10 values)) else none

/-- The decimal digits of a natural number. -/
def writeNatural (n : Nat) : Text := Nat.toDigits 10 n

/-- An integer in decimal. -/
def writeInteger (n : Int) : Text :=
  if n < 0 then '-' :: writeNatural n.natAbs else writeNatural n.natAbs

end DocGraph
