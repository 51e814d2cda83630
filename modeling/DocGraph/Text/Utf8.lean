import DocGraph.Text.Basic

/-!
# UTF-8

Bytes are read one at a time. A lead byte opens a sequence and fixes which bytes may follow; a byte
that does not fit closes the sequence as ill-formed and is then read afresh. So each maximal part of
a sequence that could have been continued counts as one fault, which `decodeReplacing` shows as one
replacement character and `decode?` refuses.
-/

namespace DocGraph

/-- The content of a file. -/
abbrev Bytes := List UInt8

namespace Utf8

/-- A sequence under way: how many bytes are missing, the range of the next one and the bits so
far. -/
structure Open where
  missing : Nat
  low : Nat
  high : Nat
  bits : Nat
deriving DecidableEq, Repr

/-- What a byte means at the start of a sequence. -/
inductive Lead
  | character (c : Char)
  | opens (sequence : Open)
  | bad
deriving DecidableEq, Repr

/-- Reads the first byte of a sequence. The ranges of the second byte keep out overlong forms,
surrogates and code points past the last one. -/
def lead (byte : UInt8) : Lead :=
  let b := byte.toNat
  if b < 0x80 then .character (Char.ofNat b)
  else if b < 0xC2 then .bad
  else if b < 0xE0 then .opens ⟨1, 0x80, 0xBF, b - 0xC0⟩
  else if b = 0xE0 then .opens ⟨2, 0xA0, 0xBF, 0⟩
  else if b = 0xED then .opens ⟨2, 0x80, 0x9F, 0xD⟩
  else if b < 0xF0 then .opens ⟨2, 0x80, 0xBF, b - 0xE0⟩
  else if b = 0xF0 then .opens ⟨3, 0x90, 0xBF, 0⟩
  else if b < 0xF4 then .opens ⟨3, 0x80, 0xBF, b - 0xF0⟩
  else if b = 0xF4 then .opens ⟨3, 0x80, 0x8F, 4⟩
  else .bad

/-- The characters of a byte sequence from a given state, `none` for each fault. -/
def unitsFrom : Option Open → Bytes → List (Option Char)
  | none, [] => []
  | some _, [] => [none]
  | none, byte :: rest =>
    match lead byte with
    | .character c => some c :: unitsFrom none rest
    | .opens sequence => unitsFrom (some sequence) rest
    | .bad => none :: unitsFrom none rest
  | some sequence, byte :: rest =>
    let b := byte.toNat
    if sequence.low ≤ b && b ≤ sequence.high then
      -- every byte after the first adds six bits
      let bits := sequence.bits * 64 + (b - 0x80)
      if sequence.missing ≤ 1 then some (Char.ofNat bits) :: unitsFrom none rest
      else unitsFrom (some ⟨sequence.missing - 1, 0x80, 0xBF, bits⟩) rest
    else
      -- the sequence is cut short, and the byte that cut it begins anew
      match lead byte with
      | .character c => none :: some c :: unitsFrom none rest
      | .opens next => none :: unitsFrom (some next) rest
      | .bad => none :: none :: unitsFrom none rest

/-- The characters of a byte sequence, `none` for each fault. -/
def units (bytes : Bytes) : List (Option Char) := unitsFrom none bytes

/-- The text that the bytes encode, if they are well-formed. -/
def decode? (bytes : Bytes) : Option Text := (units bytes).mapM id

/-- The text that the bytes encode, with U+FFFD for each fault. -/
def decodeReplacing (bytes : Bytes) : Text := (units bytes).map (·.getD (Char.ofNat 0xFFFD))

def encode (t : Text) : Bytes := t.flatMap String.utf8EncodeChar

/-- The number of bytes of a text. -/
def size (t : Text) : Nat := (encode t).length

end Utf8

namespace Text

/-- Turns the line ends CR LF and CR into LF. -/
def unifyLineEnds : Text → Text
  | [] => []
  | '\r' :: '\n' :: rest => '\n' :: unifyLineEnds rest
  | c :: rest => (if c = '\r' then '\n' else c) :: unifyLineEnds rest

end Text

end DocGraph
