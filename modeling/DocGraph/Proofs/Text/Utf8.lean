import DocGraph.Text.Utf8
import Mathlib.Algebra.Group.Nat.Defs

/-!
# Decoding UTF-8

An ASCII byte always stands for its own character and cuts the decoding in two, however ill-formed
its surroundings are: a sequence under way is closed by it, and no longer sequence stands for an
ASCII character. Where all bytes are well-formed there is nothing to replace, and a text that is
encoded is read back.
-/

namespace DocGraph

namespace Utf8

variable {byte : UInt8} {bytes rest : Bytes} {sequence : Open} {t : Text} {c : Char}

/-- That a sequence under way has nothing to do with ASCII: no ASCII byte may come next, and the
character that it ends in is beyond ASCII, even if all its bytes are the least that fit. -/
structure Open.Long (sequence : Open) : Prop where
  missing : 0 < sequence.missing
  low : 0x80 ≤ sequence.low
  bits : 0x80 ≤ (sequence.bits * 64 + (sequence.low - 0x80)) * 64 ^ (sequence.missing - 1)

/-! ## Steps -/

theorem lead_ascii (h : byte.toNat < 0x80) : lead byte = .character (Char.ofNat byte.toNat) := by
  simp only [lead, if_pos h]

theorem lead_two (hlow : 0xC2 ≤ byte.toNat) (hhigh : byte.toNat < 0xE0) :
    lead byte = .opens ⟨1, 0x80, 0xBF, byte.toNat - 0xC0⟩ := by
  simp only [lead]
  rw [if_neg (by omega), if_neg (by omega), if_pos hhigh]

theorem lead_three (hlow : 0xE0 ≤ byte.toNat) (hhigh : byte.toNat < 0xF0) :
    lead byte = .opens ⟨2, if byte.toNat = 0xE0 then 0xA0 else 0x80,
      if byte.toNat = 0xED then 0x9F else 0xBF, byte.toNat - 0xE0⟩ := by
  simp only [lead]
  rw [if_neg (by omega), if_neg (by omega), if_neg (by omega)]
  by_cases hfirst : byte.toNat = 0xE0
  · simp [hfirst]
  · by_cases hsurrogates : byte.toNat = 0xED
    · simp [hsurrogates]
    · simp [hfirst, hsurrogates, hhigh]

theorem lead_four (hlow : 0xF0 ≤ byte.toNat) (hhigh : byte.toNat < 0xF5) :
    lead byte = .opens ⟨3, if byte.toNat = 0xF0 then 0x90 else 0x80,
      if byte.toNat = 0xF4 then 0x8F else 0xBF, byte.toNat - 0xF0⟩ := by
  simp only [lead]
  rw [if_neg (by omega), if_neg (by omega), if_neg (by omega), if_neg (by omega),
    if_neg (by omega), if_neg (by omega)]
  by_cases hfirst : byte.toNat = 0xF0
  · simp [hfirst]
  · by_cases hlast : byte.toNat = 0xF4
    · simp [hlast]
    · simp [hfirst, hlast, show byte.toNat < 0xF4 by omega]

/-- What a byte at the start of a sequence means: an ASCII character, a longer sequence or a
fault. -/
theorem lead_cases (byte : UInt8) :
    (byte.toNat < 0x80 ∧ lead byte = .character (Char.ofNat byte.toNat)) ∨
    (0x80 ≤ byte.toNat ∧ ∃ sequence : Open, lead byte = .opens sequence ∧ sequence.Long) ∨
    (0x80 ≤ byte.toNat ∧ lead byte = .bad) := by
  by_cases hascii : byte.toNat < 0x80
  · exact .inl ⟨hascii, lead_ascii hascii⟩
  refine .inr ?_
  have hbyte : 0x80 ≤ byte.toNat := Nat.le_of_not_lt hascii
  by_cases htwo : 0xC2 ≤ byte.toNat ∧ byte.toNat < 0xE0
  · refine .inl ⟨hbyte, _, lead_two htwo.1 htwo.2, by simp, by simp, ?_⟩
    simp only [Nat.sub_self, Nat.pow_zero]
    omega
  by_cases hthree : 0xE0 ≤ byte.toNat ∧ byte.toNat < 0xF0
  · refine .inl ⟨hbyte, _, lead_three hthree.1 hthree.2, by simp, ?_, ?_⟩
    · simp only
      split <;> omega
    · simp only [Nat.add_one_sub_one, Nat.pow_one]
      split <;> omega
  by_cases hfour : 0xF0 ≤ byte.toNat ∧ byte.toNat < 0xF5
  · refine .inl ⟨hbyte, _, lead_four hfour.1 hfour.2, by simp, ?_, ?_⟩
    · simp only
      split <;> omega
    · simp only
      split <;> omega
  refine .inr ⟨hbyte, ?_⟩
  simp only [lead]
  rw [if_neg hascii]
  by_cases hearly : byte.toNat < 0xC2
  · rw [if_pos hearly]
  · rw [if_neg hearly, if_neg (by omega), if_neg (by omega), if_neg (by omega), if_neg (by omega),
      if_neg (by omega), if_neg (by omega), if_neg (by omega)]

theorem unitsFrom_opens (h : lead byte = .opens sequence) :
    unitsFrom none (byte :: rest) = unitsFrom (some sequence) rest := by
  rw [unitsFrom, h]

/-- A byte that fits and is not the last of its sequence. -/
theorem unitsFrom_next (hlow : sequence.low ≤ byte.toNat) (hhigh : byte.toNat ≤ sequence.high)
    (hmissing : 1 < sequence.missing) :
    unitsFrom (some sequence) (byte :: rest) =
      unitsFrom (some ⟨sequence.missing - 1, 0x80, 0xBF,
        sequence.bits * 64 + (byte.toNat - 0x80)⟩) rest := by
  rw [unitsFrom]
  simp only [hlow, hhigh, decide_true, Bool.and_self, if_true]
  rw [if_neg (Nat.not_le_of_lt hmissing)]

/-- A byte that fits and is the last of its sequence. -/
theorem unitsFrom_last (hlow : sequence.low ≤ byte.toNat) (hhigh : byte.toNat ≤ sequence.high)
    (hmissing : sequence.missing ≤ 1) :
    unitsFrom (some sequence) (byte :: rest) =
      some (Char.ofNat (sequence.bits * 64 + (byte.toNat - 0x80))) :: unitsFrom none rest := by
  rw [unitsFrom]
  simp only [hlow, hhigh, decide_true, Bool.and_self, if_true]
  rw [if_pos hmissing]

/-- A byte that does not fit closes the sequence as a fault and is read afresh. -/
theorem unitsFrom_unfit (h : ¬ (sequence.low ≤ byte.toNat ∧ byte.toNat ≤ sequence.high)) :
    unitsFrom (some sequence) (byte :: rest) = none :: unitsFrom none (byte :: rest) := by
  rw [unitsFrom, unitsFrom]
  simp only [Bool.and_eq_true, decide_eq_true_eq, if_neg h]
  cases lead byte <;> rfl

theorem Open.Long.next (h : sequence.Long) (hlow : sequence.low ≤ byte.toNat)
    (hmissing : 1 < sequence.missing) :
    Open.Long ⟨sequence.missing - 1, 0x80, 0xBF, sequence.bits * 64 + (byte.toNat - 0x80)⟩ := by
  refine ⟨Nat.sub_pos_of_lt hmissing, Nat.le_refl _, ?_⟩
  obtain ⟨more, hmore⟩ : ∃ more, sequence.missing = more + 2 :=
    ⟨sequence.missing - 2, by omega⟩
  have hbits := h.bits
  rw [hmore, Nat.add_one_sub_one, Nat.pow_succ] at hbits
  simp only [hmore, Nat.add_one_sub_one, Nat.sub_self, Nat.add_zero]
  have hgrows : sequence.bits * 64 + (sequence.low - 0x80) ≤
      sequence.bits * 64 + (byte.toNat - 0x80) := by omega
  calc 0x80 ≤ (sequence.bits * 64 + (sequence.low - 0x80)) * (64 ^ more * 64) := hbits
    _ ≤ (sequence.bits * 64 + (byte.toNat - 0x80)) * (64 ^ more * 64) :=
      Nat.mul_le_mul_right _ hgrows
    _ = (sequence.bits * 64 + (byte.toNat - 0x80)) * 64 * 64 ^ more := by
      rw [Nat.mul_assoc, Nat.mul_comm 64]

theorem Open.Long.last (h : sequence.Long) (hlow : sequence.low ≤ byte.toNat)
    (hmissing : sequence.missing ≤ 1) : 0x80 ≤ sequence.bits * 64 + (byte.toNat - 0x80) := by
  have hone : sequence.missing = 1 := Nat.le_antisymm hmissing h.missing
  have hbits := h.bits
  rw [hone, Nat.sub_self, Nat.pow_zero, Nat.mul_one] at hbits
  omega

theorem toNat_ofNat_of_valid {code : Nat} (h : code.isValidChar) :
    (Char.ofNat code).toNat = code := by
  rw [Char.ofNat, dif_pos h]
  rfl

theorem toNat_ofNat_byte (h : byte.toNat < 0x80) : (Char.ofNat byte.toNat).toNat = byte.toNat :=
  toNat_ofNat_of_valid (.inl (by omega))

/-- Sequences of more than one byte have no ASCII characters but the null character that stands for
all that is no character. -/
theorem le_toNat_or_eq_nul {code : Nat} (h : 0x80 ≤ code) :
    0x80 ≤ (Char.ofNat code).toNat ∨ (Char.ofNat code).toNat = 0 := by
  by_cases hvalid : code.isValidChar
  · exact .inl (by rwa [toNat_ofNat_of_valid hvalid])
  · refine .inr ?_
    rw [Char.ofNat, dif_neg hvalid]
    rfl

/-! ## ASCII bytes -/

/-- What one byte adds to the decoding, whatever follows it, and the state that it leads to. -/
structure Step (state : Option Open) (byte : UInt8) (out : List (Option Char))
    (next : Option Open) : Prop where
  units : ∀ rest, unitsFrom state (byte :: rest) = out ++ unitsFrom next rest
  long : ∀ sequence ∈ next, sequence.Long
  ascii : ∀ c, some c ∈ out → 0 < c.toNat → c.toNat < 0x80 → byte.toNat = c.toNat

theorem exists_step_none (byte : UInt8) : ∃ out next, Step none byte out next := by
  rcases lead_cases byte with ⟨hascii, hlead⟩ | ⟨-, sequence, hlead, hlong⟩ | ⟨-, hlead⟩
  · refine ⟨[some (Char.ofNat byte.toNat)], none, fun rest => ?_, by simp, ?_⟩
    · rw [unitsFrom, hlead, List.singleton_append]
    · intro c hc _ _
      rw [Option.some.inj (List.mem_singleton.1 hc), toNat_ofNat_byte hascii]
  · exact ⟨[], some sequence, fun rest => unitsFrom_opens hlead, by simpa using hlong, by simp⟩
  · refine ⟨[none], none, fun rest => ?_, by simp, by simp⟩
    rw [unitsFrom, hlead, List.singleton_append]

theorem exists_step (state : Option Open) (hstate : ∀ sequence ∈ state, sequence.Long)
    (byte : UInt8) : ∃ out next, Step state byte out next := by
  cases state with
  | none => exact exists_step_none byte
  | some sequence =>
    have hlong := hstate sequence rfl
    by_cases hfits : sequence.low ≤ byte.toNat ∧ byte.toNat ≤ sequence.high
    · obtain ⟨hlow, hhigh⟩ := hfits
      by_cases hmissing : sequence.missing ≤ 1
      · refine ⟨[some (Char.ofNat (sequence.bits * 64 + (byte.toNat - 0x80)))], none,
          fun rest => unitsFrom_last hlow hhigh hmissing, by simp, ?_⟩
        intro c hc hpos hascii
        rw [Option.some.inj (List.mem_singleton.1 hc)] at hpos hascii
        rcases le_toNat_or_eq_nul (hlong.last hlow hmissing) with hcode | hcode <;> omega
      · have hmore : 1 < sequence.missing := Nat.lt_of_not_le hmissing
        exact ⟨[], _, fun rest => unitsFrom_next hlow hhigh hmore,
          by simpa using hlong.next hlow hmore, by simp⟩
    · obtain ⟨out, next, hstep⟩ := exists_step_none byte
      refine ⟨none :: out, next, fun rest => ?_, hstep.long, ?_⟩
      · rw [unitsFrom_unfit hfits, hstep.units, List.cons_append]
      · exact fun c hc => hstep.ascii c (by simpa using hc)

/-- By induction on the bytes before it: a sequence that is under way there takes no ASCII byte. -/
theorem unitsFrom_append_ascii (h : byte.toNat < 0x80) (before rest : Bytes) (state : Option Open)
    (hstate : ∀ sequence ∈ state, sequence.Long) :
    unitsFrom state (before ++ byte :: rest) =
      unitsFrom state before ++ some (Char.ofNat byte.toNat) :: unitsFrom none rest := by
  induction before generalizing state with
  | nil =>
    have hplain : unitsFrom none (byte :: rest) =
        some (Char.ofNat byte.toNat) :: unitsFrom none rest := by
      rw [unitsFrom, lead_ascii h]
    cases state with
    | none => rw [List.nil_append, hplain, unitsFrom, List.nil_append]
    | some sequence =>
      have hlow := (hstate sequence rfl).low
      rw [List.nil_append, unitsFrom_unfit (by omega), hplain, unitsFrom, List.singleton_append]
  | cons first before ih =>
    obtain ⟨out, next, hstep⟩ := exists_step state hstate first
    rw [List.cons_append, hstep.units, hstep.units, ih next hstep.long, List.append_assoc]

/-- An ASCII byte cuts the decoding in two, whatever stands on its sides. -/
theorem units_append_ascii (h : byte.toNat < 0x80) (before rest : Bytes) :
    units (before ++ byte :: rest) =
      units before ++ some (Char.ofNat byte.toNat) :: units rest :=
  unitsFrom_append_ascii h before rest none (by simp)

/-- An ASCII character comes from the byte with its code. -/
theorem mem_of_mem_unitsFrom (hpos : 0 < c.toNat) (hascii : c.toNat < 0x80)
    (state : Option Open) (hstate : ∀ sequence ∈ state, sequence.Long)
    (h : some c ∈ unitsFrom state bytes) : ∃ byte ∈ bytes, byte.toNat = c.toNat := by
  induction bytes generalizing state with
  | nil => cases state <;> simp [unitsFrom] at h
  | cons first bytes ih =>
    obtain ⟨out, next, hstep⟩ := exists_step state hstate first
    rw [hstep.units, List.mem_append] at h
    rcases h with h | h
    · exact ⟨first, List.mem_cons_self, hstep.ascii c h hpos hascii⟩
    · obtain ⟨byte, hbyte, hcode⟩ := ih next hstep.long h
      exact ⟨byte, List.mem_cons_of_mem _ hbyte, hcode⟩

/-! ## Texts -/

theorem decode?_eq_some_iff : decode? bytes = some t ↔ units bytes = t.map some := by
  rw [decode?]
  generalize units bytes = us
  induction us generalizing t with
  | nil => cases t <;> simp
  | cons u us ih =>
    cases u with
    | none => cases t <;> simp
    | some d =>
      cases t with
      | nil => simp [Option.bind_eq_some_iff]
      | cons c t =>
        simp only [List.mapM_cons, id_eq, Option.bind_eq_bind, Option.bind_some,
          Option.bind_eq_some_iff, Option.pure_def, Option.some.injEq, List.cons.injEq,
          List.map_cons]
        constructor
        · rintro ⟨rest, hrest, rfl, rfl⟩
          exact ⟨rfl, ih.1 hrest⟩
        · rintro ⟨rfl, hrest⟩
          exact ⟨t, ih.2 hrest, rfl, rfl⟩

/-- Where all bytes are well-formed, nothing is replaced. -/
theorem decodeReplacing_of_decode? (h : decode? bytes = some t) : decodeReplacing bytes = t := by
  rw [decodeReplacing, decode?_eq_some_iff.1 h, List.map_map]
  exact List.map_id t

theorem decodeReplacing_append_ascii (h : byte.toNat < 0x80) (before rest : Bytes) :
    decodeReplacing (before ++ byte :: rest) =
      decodeReplacing before ++ Char.ofNat byte.toNat :: decodeReplacing rest := by
  simp [decodeReplacing, units_append_ascii h]

/-- The ASCII characters of a decoded text, replaced faults or not, are those of its ASCII bytes. -/
theorem mem_decodeReplacing_ascii_iff (hpos : 0 < byte.toNat) (h : byte.toNat < 0x80) :
    Char.ofNat byte.toNat ∈ decodeReplacing bytes ↔ byte ∈ bytes := by
  have hcode := toNat_ofNat_byte h
  constructor
  · intro hmem
    obtain ⟨u, hu, huc⟩ := List.mem_map.1 hmem
    cases u with
    | none =>
      rw [Option.getD_none] at huc
      have hreplacement : (Char.ofNat 0xFFFD).toNat = 0xFFFD := by decide
      rw [← huc] at hcode
      omega
    | some d =>
      rw [Option.getD_some] at huc
      subst huc
      obtain ⟨found, hfound, hsame⟩ := mem_of_mem_unitsFrom (by omega) (by omega) none (by simp) hu
      have hbyte : found = byte := UInt8.toNat_inj.1 (by omega)
      exact hbyte ▸ hfound
  · intro hmem
    obtain ⟨before, rest, rfl⟩ := List.append_of_mem hmem
    rw [decodeReplacing_append_ascii h]
    simp

/-! ## Encoding -/

/-- The bytes of a character are read back as that character, whatever follows them. -/
theorem units_encodeChar (c : Char) (rest : Bytes) :
    units (String.utf8EncodeChar c ++ rest) = some c :: units rest := by
  have hvalid : c.toNat < 0xD800 ∨ 0xDFFF < c.toNat ∧ c.toNat < 0x110000 := c.valid
  have hself : Char.ofNat c.toNat = c := Char.ofNat_toNat c
  have hsize : UInt8.size = 0x100 := rfl
  simp only [String.utf8EncodeChar, units]
  rw [show c.val.toNat = c.toNat from rfl]
  generalize c.toNat = code at hvalid hself
  -- A character takes one to four bytes, by the size of its code.
  split
  · have hbyte := @UInt8.toNat_ofNat_of_lt' code (by omega)
    rw [List.singleton_append, unitsFrom, lead_ascii (by omega), hbyte, hself]
  split
  · have hfirst := @UInt8.toNat_ofNat_of_lt' (code / 64 % 32 + 192) (by omega)
    have hsecond := @UInt8.toNat_ofNat_of_lt' (code % 64 + 128) (by omega)
    rw [List.cons_append, List.singleton_append,
      unitsFrom_opens (lead_two (by omega) (by omega)),
      unitsFrom_last (by simp only; omega) (by simp only; omega) (Nat.le_refl _), hfirst, hsecond]
    rw [show (code / 64 % 32 + 192 - 0xC0) * 64 + (code % 64 + 128 - 0x80) = code by omega, hself]
  split
  · have hfirst := @UInt8.toNat_ofNat_of_lt' (code / 4096 % 16 + 224) (by omega)
    have hsecond := @UInt8.toNat_ofNat_of_lt' (code / 64 % 64 + 128) (by omega)
    have hthird := @UInt8.toNat_ofNat_of_lt' (code % 64 + 128) (by omega)
    rw [List.cons_append, List.cons_append, List.singleton_append,
      unitsFrom_opens (lead_three (by omega) (by omega)),
      unitsFrom_next (by simp only; split <;> omega) (by simp only; split <;> omega) (by simp),
      unitsFrom_last (by simp only; omega) (by simp only; omega) (Nat.le_refl _),
      hfirst, hsecond, hthird]
    rw [show ((code / 4096 % 16 + 224 - 0xE0) * 64 + (code / 64 % 64 + 128 - 0x80)) * 64 +
      (code % 64 + 128 - 0x80) = code by omega, hself]
  · have hfirst := @UInt8.toNat_ofNat_of_lt' (code / 262144 % 8 + 240) (by omega)
    have hsecond := @UInt8.toNat_ofNat_of_lt' (code / 4096 % 64 + 128) (by omega)
    have hthird := @UInt8.toNat_ofNat_of_lt' (code / 64 % 64 + 128) (by omega)
    have hfourth := @UInt8.toNat_ofNat_of_lt' (code % 64 + 128) (by omega)
    rw [List.cons_append, List.cons_append, List.cons_append, List.singleton_append,
      unitsFrom_opens (lead_four (by omega) (by omega)),
      unitsFrom_next (by simp only; split <;> omega) (by simp only; split <;> omega) (by simp),
      unitsFrom_next (by simp only; omega) (by simp only; omega) (by simp),
      unitsFrom_last (by simp only; omega) (by simp only; omega) (Nat.le_refl _),
      hfirst, hsecond, hthird, hfourth]
    rw [show (((code / 262144 % 8 + 240 - 0xF0) * 64 + (code / 4096 % 64 + 128 - 0x80)) * 64 +
      (code / 64 % 64 + 128 - 0x80)) * 64 + (code % 64 + 128 - 0x80) = code by omega, hself]

/-- A text that is encoded is read back. -/
theorem decode?_encode (t : Text) : decode? (encode t) = some t := by
  rw [decode?_eq_some_iff]
  induction t with
  | nil => rfl
  | cons c t ih =>
    rw [show encode (c :: t) = String.utf8EncodeChar c ++ encode t from List.flatMap_cons,
      units_encodeChar, ih, List.map_cons]

end Utf8

end DocGraph
