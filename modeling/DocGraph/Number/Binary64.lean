import DocGraph.Number.Integer
import DocGraph.Text.LetterCase

/-!
# Numbers in double precision

A finite number is a sign and a magnitude `mantissa * 2 ^ exponent` with a mantissa of at most 53
bits and an exponent of at least -1074. `ofRatio` rounds a quotient to the nearest of them, a tie to
the even mantissa, in exact arithmetic; all other operations go through it.

`Binary64.write` gives the fewest decimal digits that round back to the number, and of those the
nearest to it. They are written positionally while the exponent of the first digit lies between -4
and 15, with `.0` behind an integer, and otherwise as one digit, a fraction and an exponent of at
least two digits.
-/

namespace DocGraph

/-- A number in double precision. -/
inductive Binary64
  | nan
  | infinite (negative : Bool)
  | finite (negative : Bool) (mantissa : Nat) (exponent : Int)
deriving DecidableEq, Repr

namespace Binary64

/-- The exponent of the smallest positive number. -/
def minExponent : Int := -1074

/-- A quotient rounded to the nearest integer, a tie to the even one. -/
def roundQuotient (num den : Nat) : Nat :=
  let q := num / den
  let r := num % den
  if 2 * r < den then q else if den < 2 * r then q + 1 else if q % 2 = 0 then q else q + 1

/-- `num / (den * 2 ^ e)` as numerator and denominator. -/
def scaleDown (num den : Nat) (e : Int) : Nat × Nat :=
  match e with
  | .ofNat k => (num, den * twoTo k)
  | .negSucc k => (num * twoTo (k + 1), den)

/-- The exponent that gives `num / den` a mantissa of 53 bits, or the least one. -/
def exponentFor (num den : Nat) : Int :=
  -- the logarithms are rounded down, so the guess is right or one too large
  let guess : Int := (Nat.log2 num : Int) - Nat.log2 den - 52
  let (n, d) := scaleDown num den guess
  max minExponent (if n < twoTo 52 * d then guess - 1 else guess)

/-- The number nearest to `num / den`, with a sign. -/
def ofRatio (negative : Bool) (num den : Nat) : Binary64 :=
  if num = 0 then .finite negative 0 0
  else
    let e := exponentFor num den
    let (n, d) := scaleDown num den e
    let m := roundQuotient n d
    -- rounding up may carry into one more bit
    let (m, e) := if m = twoTo 53 then (twoTo 52, e + 1) else (m, e)
    if e > 971 then .infinite negative else .finite negative m e

/-- The number nearest to `mantissa * 2 ^ exponent`, with a sign. -/
def ofScaled (negative : Bool) (mantissa : Nat) (exponent : Int) : Binary64 :=
  match exponent with
  | .ofNat k => ofRatio negative (mantissa * twoTo k) 1
  | .negSucc k => ofRatio negative mantissa (twoTo (k + 1))

/-- The number nearest to `digits * 10 ^ exponent`, with a sign. Numbers far outside the range are
told by their digit count, so that no power is formed for them. -/
def ofDecimal (negative : Bool) (digits : Nat) (exponent : Int) : Binary64 :=
  let order : Int := (Nat.toDigits 10 digits).length + exponent
  if digits = 0 then .finite negative 0 0
  else if order > 400 then .infinite negative
  else if order < -400 then .finite negative 0 0
  else
    match exponent with
    | .ofNat k => ofRatio negative (digits * tenTo k) 1
    | .negSucc k => ofRatio negative digits (tenTo (k + 1))

/-- Whether a number is zero, of either sign. -/
def isZero : Binary64 → Bool
  | .finite _ 0 _ => true
  | _ => false

/-- The number with the opposite sign. -/
def neg : Binary64 → Binary64
  | .nan => .nan
  | .infinite negative => .infinite (!negative)
  | .finite negative m e => .finite (!negative) m e

/-- The rounded sum of two numbers. -/
def add : Binary64 → Binary64 → Binary64
  | .nan, _ => .nan
  | _, .nan => .nan
  | .infinite a, .infinite b => if a = b then .infinite a else .nan
  | .infinite a, .finite .. => .infinite a
  | .finite .., .infinite b => .infinite b
  | .finite a m e, .finite b n f =>
    let low := min e f
    let x := signed a (m * twoTo (e - low).toNat)
    let y := signed b (n * twoTo (f - low).toNat)
    let sum := x + y
    -- a sum of zero is negative only if both parts are
    if sum = 0 then .finite (a && b) 0 0 else ofScaled (decide (sum < 0)) sum.natAbs low

/-- The rounded product of two numbers. -/
def mul : Binary64 → Binary64 → Binary64
  | .nan, _ => .nan
  | _, .nan => .nan
  | .infinite a, .infinite b => .infinite (a != b)
  | .infinite a, .finite b n _ => if n = 0 then .nan else .infinite (a != b)
  | .finite a m _, .infinite b => if m = 0 then .nan else .infinite (a != b)
  | .finite a m e, .finite b n f => ofScaled (a != b) (m * n) (e + f)

/-- The integer that a finite number equals, if it equals one. -/
def toInteger? : Binary64 → Option Int
  | .finite negative m e =>
    match e with
    | .ofNat k => some (signed negative (m * twoTo k))
    | .negSucc k => if m % twoTo (k + 1) = 0 then some (signed negative (m / twoTo (k + 1))) else none
  | _ => none

/-! ## Reading -/

/-- Removes underscores that stand between two ASCII digits. Any other underscore is refused. -/
def dropUnderscores? (afterDigit : Bool) : Text → Option Text
  | [] => some []
  | '_' :: c :: rest =>
    if afterDigit && isAsciiDigit c then (dropUnderscores? true rest).map (c :: ·) else none
  | ['_'] => none
  | c :: rest => (dropUnderscores? (isAsciiDigit c) rest).map (c :: ·)

/-- The digits of every script as ASCII digits. -/
def toAsciiDigits (t : Text) : Text :=
  t.map fun c =>
    match digitValue? c with
    | some value => Char.ofNat ('0'.toNat + value)
    | none => c

/-- Leading ASCII digits and the rest. -/
def spanDigits (t : Text) : Text × Text := (t.takeWhile isAsciiDigit, t.dropWhile isAsciiDigit)

/-- The value of ASCII digits in decimal. -/
def digitsValue (t : Text) : Nat := Text.ofDigits 10 (t.filterMap asciiDigit?)

/-- Reads the exponent behind the digits, which may be missing. -/
def readExponent? : Text → Option Int
  | [] => some 0
  | c :: rest =>
    if c = 'e' ∨ c = 'E' then
      let (negative, digits) := splitSign rest
      if digits.isEmpty || !digits.all isAsciiDigit then none
      else some (signed negative (digitsValue digits))
    else none

/-- Reads an unsigned number written with ASCII digits, a point and an exponent. -/
def readUnsigned? (negative : Bool) (t : Text) : Option Binary64 :=
  let (whole, rest) := spanDigits t
  let (fraction, rest) :=
    match rest with
    | '.' :: rest => spanDigits rest
    | rest => ([], rest)
  if whole.isEmpty && fraction.isEmpty then none
  else
    (readExponent? rest).map fun exponent =>
      ofDecimal negative (digitsValue (whole ++ fraction)) (exponent - fraction.length)

/-- Reads a number: decimal with an optional point and exponent, or the words for infinity and not a
number in any case. Blanks around it count for nothing, digits of every script are taken, and one
underscore may stand between two digits. -/
def read? (t : Text) : Option Binary64 := do
  let t ← dropUnderscores? false (toAsciiDigits (Text.trimNumber t))
  let (negative, body) := splitSign t
  let word := Text.lower body
  if word = "inf".toList ∨ word = "infinity".toList then pure (.infinite negative)
  else if word = "nan".toList then pure .nan
  else readUnsigned? negative body

/-! ## Writing -/

/-- Whether `digits * 10 ^ power` rounds to the positive number `m * 2 ^ e`. -/
def roundsTo (digits : Nat) (power : Int) (m : Nat) (e : Int) : Bool :=
  ofDecimal false digits power == .finite false m e

/-- `m * 2 ^ e / 10 ^ power` as numerator and denominator. -/
def overPower (m : Nat) (e : Int) (power : Int) : Nat × Nat :=
  let (n, d) := scaleDown m 1 (-e)
  match power with
  | .ofNat k => (n, d * tenTo k)
  | .negSucc k => (n * tenTo (k + 1), d)

/-- The nearest point of the grid of multiples of `10 ^ power` that rounds back to `m * 2 ^ e`, if
one of the two points around it does. A tie goes to the even multiple. -/
def gridPoint? (m : Nat) (e : Int) (power : Int) : Option Nat :=
  let (n, d) := overPower m e power
  let below := n / d
  let nearest := roundQuotient n d
  -- the point on the other side, which may round back although it is further off
  let other := if nearest = below then below + 1 else below
  if roundsTo nearest power m e then some nearest
  else if roundsTo other power m e then some other
  else none

/-- The order of magnitude of `m * 2 ^ e`: the exponent of its first decimal digit. The count of
digits of the rounded down quotient is exact once the quotient has at least one digit, which the
power `-330` ensures. -/
def orderOf (m : Nat) (e : Int) : Int :=
  let (n, d) := overPower m e (-330)
  ((Nat.toDigits 10 (n / d)).length : Int) - 331

/-- The fewest digits from `count` on that round back, and the power of ten of the last one. -/
def shortestFrom (m : Nat) (e : Int) (order : Int) : Nat → Nat → Nat × Int
  | 0, count => ((overPower m e (order - count + 1)).1, 0)
  | tries + 1, count =>
    let power := order - count + 1
    match gridPoint? m e power with
    | some digits => (digits, power)
    | none => shortestFrom m e order tries (count + 1)

/-- Removes trailing zeros of a text of digits, but for the first digit. -/
def dropZeros (digits : Text) : Text :=
  match digits with
  | [] => []
  | first :: rest => first :: (rest.reverse.dropWhile (· = '0')).reverse

/-- The exponent behind the digits, with a sign and at least two digits. -/
def writeExponent (exponent : Int) : Text :=
  let digits := writeNatural exponent.natAbs
  ['e', if exponent < 0 then '-' else '+'] ++ List.replicate (2 - digits.length) '0' ++ digits

/-- Lays out digits `d₁d₂…` that stand for `d₁.d₂… * 10 ^ exponent`. -/
def layout (digits : Text) (exponent : Int) : Text :=
  if exponent < -4 ∨ 16 ≤ exponent then
    match digits with
    | [] => []
    | [first] => first :: writeExponent exponent
    | first :: rest => first :: '.' :: rest ++ writeExponent exponent
  else if exponent < 0 then
    '0' :: '.' :: List.replicate (exponent.natAbs - 1) '0' ++ digits
  else
    let places := exponent.natAbs + 1
    let whole := digits.take places ++ List.replicate (places - digits.length) '0'
    let fraction := digits.drop places
    whole ++ '.' :: (if fraction.isEmpty then ['0'] else fraction)

/-- The shortest text that reads back as the number. -/
def write : Binary64 → Text
  | .nan => "nan".toList
  | .infinite negative => if negative then "-inf".toList else "inf".toList
  | .finite negative m e =>
    let body :=
      if m = 0 then "0.0".toList
      else
        -- seventeen digits always round back, so the search ends with an answer
        let (digits, power) := shortestFrom m e (orderOf m e) 17 1
        let text := writeNatural digits
        layout (dropZeros text) (power + text.length - 1)
    if negative then '-' :: body else body

end Binary64

end DocGraph
