import DocGraph.Text.Utf8

/-!
# Base 64

Four characters of the alphabet stand for three bytes. Characters outside the alphabet are skipped.
The padding closes the last group, and what follows it is not read; a group that is neither full nor
closed is refused.
-/

namespace DocGraph.Yaml

/-- The value of a character of the alphabet. -/
def base64Digit? (c : Char) : Option Nat :=
  if 'A' ≤ c ∧ c ≤ 'Z' then some (c.toNat - 'A'.toNat)
  else if 'a' ≤ c ∧ c ≤ 'z' then some (c.toNat - 'a'.toNat + 26)
  else if '0' ≤ c ∧ c ≤ '9' then some (c.toNat - '0'.toNat + 52)
  else if c = '+' then some 62
  else if c = '/' then some 63
  else none

/-- The byte that a digit completes, given its place in the group and the bits left by the digit
before it. -/
def base64Byte (place left digit : Nat) : UInt8 :=
  if place = 1 then UInt8.ofNat (left * 4 + digit / 16)
  else if place = 2 then UInt8.ofNat (left * 16 + digit / 4)
  else UInt8.ofNat (left * 64 + digit)

/-- The bits of a digit that the next byte takes over. -/
def base64Left (place digit : Nat) : Nat :=
  if place = 0 then digit else if place = 1 then digit % 16 else if place = 2 then digit % 4 else 0

/-- Decodes from the middle of a group, of which `place` digits and `pads` padding characters have
been read. -/
def decodeBase64From (place left pads : Nat) : Text → Option Bytes
  | [] => if place = 0 then some [] else none
  | c :: rest =>
    if c = '=' then
      if 2 ≤ place && 4 ≤ place + pads + 1 then some []
      else decodeBase64From place left (if 2 ≤ place then pads + 1 else pads) rest
    else
      match base64Digit? c with
      | none => decodeBase64From place left pads rest
      | some digit =>
        let more := decodeBase64From ((place + 1) % 4) (base64Left place digit) 0 rest
        if place = 0 then more else more.map (base64Byte place left digit :: ·)

/-- The bytes that a text stands for. -/
def decodeBase64? (t : Text) : Option Bytes := decodeBase64From 0 0 0 t

end DocGraph.Yaml
