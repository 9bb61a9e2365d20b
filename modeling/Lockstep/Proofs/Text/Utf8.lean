import Lockstep.Text.ControlSequence
import Lockstep.Text.Utf8
import Mathlib.Algebra.Group.Nat.Defs

/-!
# Lockstep — texts and their bytes

A text has bytes unless half of a surrogate pair is in it (`isEncodable_iff`).
It is read back from its bytes, and no other bytes are read as this text
(`decode_eq_ok_iff`). A character has one to four bytes by its
code point; for each length, the first byte says how many bytes follow and between
which bounds the second lies, and each byte after it adds six bits.

The way back is by what is known about a character that has been begun
(`Pending.Fits`): its bounds leave no code point that a shorter form has.
-/

namespace Lockstep

namespace Utf8

-- ---------------------------------------------------------------------------
-- Bytes
-- ---------------------------------------------------------------------------

theorem toNat_tailByte (code unit : Nat) :
    (tailByte code unit).toNat = 0x80 + code / unit % 0x40 := by
  rw [tailByte, UInt8.toNat_ofNat']
  omega

variable {n : Nat}

/-- The first of two bytes, which allows any byte of six bits after it. -/
theorem lead_two (hLow : 0x80 ≤ n) (hHigh : n < 0x800) :
    lead (0xc0 + n / 0x40) = .pending 1 0x80 0xbf (n / 0x40) := by
  unfold lead
  rw [if_neg (by omega), if_neg (by omega), if_pos (by omega), Nat.add_sub_cancel_left]

/-- The bounds of the second of three bytes, between which that of a code point
without a shorter form lies, if it is no surrogate. -/
theorem lead_three (hLow : 0x800 ≤ n) (hHigh : n < 0x10000) (hValid : n < 0xd800 ∨ 0xdfff < n) :
    ∃ low high, lead (0xe0 + n / 0x1000) = .pending 2 low high (n / 0x1000) ∧
      low ≤ 0x80 + n / 0x40 % 0x40 ∧ 0x80 + n / 0x40 % 0x40 ≤ high := by
  unfold lead
  rw [if_neg (by omega), if_neg (by omega), if_neg (by omega)]
  by_cases hFirst : n / 0x1000 = 0
  · refine ⟨0xa0, 0xbf, ?_, by omega, by omega⟩
    rw [if_pos (by omega), hFirst]
  rw [if_neg (by omega)]
  by_cases hSurrogate : n / 0x1000 = 0xd
  · refine ⟨0x80, 0x9f, ?_, by omega, by omega⟩
    rw [if_pos (by omega), hSurrogate]
  refine ⟨0x80, 0xbf, ?_, by omega, by omega⟩
  rw [if_neg (by omega), if_pos (by omega), Nat.add_sub_cancel_left]

/-- The bounds of the second of four bytes, between which that of a code point
without a shorter form lies. -/
theorem lead_four (hLow : 0x10000 ≤ n) (hHigh : n < 0x110000) :
    ∃ low high, lead (0xf0 + n / 0x40000) = .pending 3 low high (n / 0x40000) ∧
      low ≤ 0x80 + n / 0x1000 % 0x40 ∧ 0x80 + n / 0x1000 % 0x40 ≤ high := by
  unfold lead
  rw [if_neg (by omega), if_neg (by omega), if_neg (by omega), if_neg (by omega),
    if_neg (by omega), if_neg (by omega)]
  -- the first and the last of the five first bytes bound the second byte more narrowly
  by_cases hFirst : n / 0x40000 = 0
  · refine ⟨0x90, 0xbf, ?_, by omega, by omega⟩
    rw [if_pos (by omega), hFirst]
  rw [if_neg (by omega)]
  by_cases hLast : n / 0x40000 = 4
  · refine ⟨0x80, 0x8f, ?_, by omega, by omega⟩
    rw [if_neg (by omega), if_pos (by omega), hLast]
  refine ⟨0x80, 0xbf, ?_, by omega, by omega⟩
  rw [if_pos (by omega), Nat.add_sub_cancel_left]

-- ---------------------------------------------------------------------------
-- Steps of the decoder
-- ---------------------------------------------------------------------------

variable {place : Nat} {b : UInt8} {rest : List UInt8} {p : Pending}

/-- The first byte of a longer character is remembered with its place, which the
error of a character that is cut short is about. -/
theorem decodeFrom_begin {owed low high bits : Nat} (h : lead b.toNat = .pending owed low high bits) :
    decodeFrom place none (b :: rest) =
      decodeFrom (place + 1) (some ⟨b, place, owed, low, high, bits⟩) rest := by
  rw [decodeFrom, h]

/-- A byte within the bounds adds six bits; after the second byte of a character the
bounds are those of any further byte. -/
theorem decodeFrom_next (hLow : p.low ≤ b.toNat) (hHigh : b.toNat ≤ p.high) (hOwed : p.owed ≠ 1) :
    decodeFrom place (some p) (b :: rest) =
      decodeFrom (place + 1) (some ⟨p.first, p.start, p.owed - 1, 0x80, 0xbf,
        p.bits * 64 + (b.toNat - 0x80)⟩) rest := by
  rw [decodeFrom, if_pos ⟨hLow, hHigh⟩]
  exact if_neg hOwed

/-- The last byte of a character completes it, and nothing is owed after it. -/
theorem decodeFrom_last (hLow : p.low ≤ b.toNat) (hHigh : b.toNat ≤ p.high) (hOwed : p.owed = 1) :
    decodeFrom place (some p) (b :: rest) =
      (decodeFrom (place + 1) none rest).map
        (char (Char.ofNat (p.bits * 64 + (b.toNat - 0x80))) :: ·) := by
  rw [decodeFrom, if_pos ⟨hLow, hHigh⟩]
  exact if_pos hOwed

-- ---------------------------------------------------------------------------
-- The four lengths
-- ---------------------------------------------------------------------------

/-- A byte of six bits is one that a longer character may go on with. -/
theorem tailByte_bounds (n unit : Nat) :
    0x80 ≤ (tailByte n unit).toNat ∧ (tailByte n unit).toNat ≤ 0xbf := by
  rw [toNat_tailByte]
  omega

theorem toNat_ofNat_add {base high : Nat} (h : base + high < 0x100) :
    (UInt8.ofNat (base + high)).toNat = base + high :=
  UInt8.toNat_ofNat_of_lt h

/-- A character below 128 is one byte, read as this character. -/
theorem decodeFrom_one (h : n < 0x80) :
    decodeFrom place none (UInt8.ofNat n :: rest) =
      (decodeFrom (place + 1) none rest).map (char (Char.ofNat n) :: ·) := by
  have hByte : (UInt8.ofNat n).toNat = n := UInt8.toNat_ofNat_of_lt (show n < 0x100 by omega)
  rw [decodeFrom, hByte, lead, if_pos h]

/-- A character of two bytes is read as this character. -/
theorem decodeFrom_two (hLow : 0x80 ≤ n) (hHigh : n < 0x800) :
    decodeFrom place none (UInt8.ofNat (0xc0 + n / 0x40) :: tailByte n 1 :: rest) =
      (decodeFrom (place + 1 + 1) none rest).map (char (Char.ofNat n) :: ·) := by
  have hFirst := toNat_ofNat_add (show 0xc0 + n / 0x40 < 0x100 by omega)
  have hBits : n / 0x40 * 64 + ((tailByte n 1).toNat - 0x80) = n := by
    rw [toNat_tailByte]
    omega
  obtain ⟨hTail, hTail'⟩ := tailByte_bounds n 1
  rw [decodeFrom_begin (hFirst ▸ lead_two hLow hHigh), decodeFrom_last hTail hTail' rfl, hBits]

/-- A character of three bytes is read as this character, if its code point is none
of a surrogate, which the bounds of the second byte would refuse. -/
theorem decodeFrom_three (hLow : 0x800 ≤ n) (hHigh : n < 0x10000)
    (hValid : n < 0xd800 ∨ 0xdfff < n) :
    decodeFrom place none
        (UInt8.ofNat (0xe0 + n / 0x1000) :: tailByte n 0x40 :: tailByte n 1 :: rest) =
      (decodeFrom (place + 1 + 1 + 1) none rest).map (char (Char.ofNat n) :: ·) := by
  have hFirst := toNat_ofNat_add (show 0xe0 + n / 0x1000 < 0x100 by omega)
  -- the bits of the three bytes, put together, are the code point
  have hBits : (n / 0x1000 * 64 + ((tailByte n 0x40).toNat - 0x80)) * 64 +
      ((tailByte n 1).toNat - 0x80) = n := by
    rw [toNat_tailByte, toNat_tailByte]
    omega
  obtain ⟨low, high, hLead, hSecond, hSecond'⟩ := lead_three hLow hHigh hValid
  rw [← toNat_tailByte] at hSecond hSecond'
  obtain ⟨hTail, hTail'⟩ := tailByte_bounds n 1
  rw [decodeFrom_begin (hFirst ▸ hLead), decodeFrom_next hSecond hSecond' (show 2 ≠ 1 by decide),
    decodeFrom_last hTail hTail' rfl, hBits]

/-- A character of four bytes is read as this character. -/
theorem decodeFrom_four (hLow : 0x10000 ≤ n) (hHigh : n < 0x110000) :
    decodeFrom place none (UInt8.ofNat (0xf0 + n / 0x40000) :: tailByte n 0x1000 ::
        tailByte n 0x40 :: tailByte n 1 :: rest) =
      (decodeFrom (place + 1 + 1 + 1 + 1) none rest).map (char (Char.ofNat n) :: ·) := by
  have hFirst := toNat_ofNat_add (show 0xf0 + n / 0x40000 < 0x100 by omega)
  -- the bits of the four bytes, put together, are the code point
  have hBits : ((n / 0x40000 * 64 + ((tailByte n 0x1000).toNat - 0x80)) * 64 +
      ((tailByte n 0x40).toNat - 0x80)) * 64 + ((tailByte n 1).toNat - 0x80) = n := by
    rw [toNat_tailByte, toNat_tailByte, toNat_tailByte]
    omega
  obtain ⟨low, high, hLead, hSecond, hSecond'⟩ := lead_four hLow hHigh
  rw [← toNat_tailByte] at hSecond hSecond'
  obtain ⟨hThird, hThird'⟩ := tailByte_bounds n 0x40
  obtain ⟨hTail, hTail'⟩ := tailByte_bounds n 1
  rw [decodeFrom_begin (hFirst ▸ hLead), decodeFrom_next hSecond hSecond' (show 3 ≠ 1 by decide),
    decodeFrom_next hThird hThird' (show 2 ≠ 1 by decide), decodeFrom_last hTail hTail' rfl, hBits]

/-- The bytes of a character are read as this character, whatever follows them. -/
theorem decodeFrom_encodeChar (place : Nat) (c : Char) (rest : List UInt8) :
    decodeFrom place none (encodeChar c ++ rest) =
      (decodeFrom (place + (encodeChar c).length) none rest).map (char c :: ·) := by
  have hValid : c.toNat < 0xd800 ∨ 0xdfff < c.toNat ∧ c.toNat < 0x110000 := c.valid
  have hChar : Char.ofNat c.toNat = c := Char.ofNat_toNat c
  unfold encodeChar
  -- one case for each number of bytes; a `Char` is never a surrogate
  by_cases hOne : c.toNat < 0x80
  · simp only [if_pos hOne, List.cons_append, List.nil_append]
    rw [decodeFrom_one hOne, hChar]
    rfl
  by_cases hTwo : c.toNat < 0x800
  · simp only [if_neg hOne, if_pos hTwo, List.cons_append, List.nil_append]
    rw [decodeFrom_two (by omega) hTwo, hChar]
    rfl
  by_cases hThree : c.toNat < 0x10000
  · simp only [if_neg hOne, if_neg hTwo, if_pos hThree, List.cons_append, List.nil_append]
    rw [decodeFrom_three (by omega) hThree (by omega), hChar]
    rfl
  simp only [if_neg hOne, if_neg hTwo, if_neg hThree, List.cons_append, List.nil_append]
  rw [decodeFrom_four (by omega) (by omega), hChar]
  rfl

-- ---------------------------------------------------------------------------
-- Texts
-- ---------------------------------------------------------------------------

theorem exists_of_map_eq_ok {ε α β : Type} {f : α → β} {r : Except ε α} {y : β}
    (h : r.map f = .ok y) : ∃ x, r = .ok x ∧ f x = y := by
  cases r with
  | error e => simp [Except.map] at h
  | ok x => exact ⟨x, rfl, Except.ok.inj h⟩

variable {bytes : List UInt8} {t : Text}

/-- A text is encoded letter by letter, and only if each letter has bytes; the place
at which it begins matters for the error alone. The bytes of a letter are a
parameter, since contents of files and their names are encoded differently. -/
theorem encodeFrom_eq_ok_iff {bytes? : Letter → Option (List UInt8)} :
    encodeFrom bytes? place t = .ok bytes ↔
      (∀ c ∈ t, (bytes? c).isSome) ∧ bytes = (t.filterMap bytes?).flatten := by
  induction t generalizing place bytes with
  | nil =>
    rw [encodeFrom, Except.ok.injEq, List.filterMap_nil, List.flatten_nil, eq_comm]
    simp only [List.not_mem_nil, false_implies, implies_true, true_and]
  | cons c rest ih =>
    rw [encodeFrom]
    -- a letter without bytes ends the encoding; otherwise the rest decides
    cases hBytes : bytes? c with
    | none => simp [hBytes]
    | some first =>
      rw [List.filterMap_cons_some hBytes, List.flatten_cons]
      constructor
      · intro h
        obtain ⟨others, hOthers, rfl⟩ := exists_of_map_eq_ok h
        obtain ⟨hRest, rfl⟩ := ih.1 hOthers
        exact ⟨by simpa [hBytes] using hRest, rfl⟩
      · rintro ⟨hAll, rfl⟩
        rw [ih.2 ⟨fun c hc => hAll c (List.mem_cons_of_mem _ hc), rfl⟩]
        rfl

/-- Contents of files are encoded by `textBytes?`, which half of a surrogate pair
does not have. -/
theorem encode_eq_ok_iff :
    encode t = .ok bytes ↔
      (∀ c ∈ t, (textBytes? c).isSome) ∧ bytes = (t.filterMap textBytes?).flatten :=
  encodeFrom_eq_ok_iff

/-- The texts that can be encoded. -/
def IsEncodable (t : Text) : Prop := ∃ bytes, encode t = .ok bytes

/-- A text can be encoded unless half of a surrogate pair is in it. -/
theorem isEncodable_iff : IsEncodable t ↔ ∀ c ∈ t, c.isHalf = false := by
  have hLetter : ∀ c : Letter, (textBytes? c).isSome = !c.isHalf := by
    intro c
    cases c <;> rfl
  simp [IsEncodable, encode_eq_ok_iff, hLetter]

theorem isEncodable_append {s t : Text} : IsEncodable (s ++ t) ↔ IsEncodable s ∧ IsEncodable t := by
  simp only [isEncodable_iff, List.forall_mem_append]

theorem IsEncodable.of_subset {s t : Text} (h : IsEncodable t) (hSub : s ⊆ t) : IsEncodable s :=
  isEncodable_iff.2 fun c hc => isEncodable_iff.1 h c (hSub hc)

/-- A string of characters alone can be encoded. -/
theorem isEncodable_text (s : String) : IsEncodable s.text := by
  refine isEncodable_iff.2 fun c hc => ?_
  obtain ⟨c, -, rfl⟩ := List.mem_map.1 hc
  rfl

instance (t : Text) : Decidable (IsEncodable t) := decidable_of_iff _ isEncodable_iff.symm

theorem encode_eq_bytesOf (h : IsEncodable t) : encode t = .ok (bytesOf t) := by
  obtain ⟨bytes, hBytes⟩ := h
  rw [bytesOf, hBytes]

/-- Of a text that cannot be encoded no bytes are written: the file was opened, and
so emptied, before the text turned out to have none. -/
theorem bytesOf_of_not_isEncodable (h : ¬IsEncodable t) : bytesOf t = [] := by
  rw [bytesOf]
  cases hBytes : encode t with
  | ok bytes => exact absurd ⟨bytes, hBytes⟩ h
  | error e => rfl

theorem encode_char_cons (c : Char) (h : encode t = .ok bytes) :
    encode (char c :: t) = .ok (encodeChar c ++ bytes) := by
  obtain ⟨hAll, rfl⟩ := encode_eq_ok_iff.1 h
  exact encode_eq_ok_iff.2 ⟨by simpa [textBytes?] using hAll, rfl⟩

/-- The bytes of a text are read as this text, at any place. Where it is read
matters for errors alone, of which there are none. -/
theorem decodeFrom_encode (place : Nat) (h : encode t = .ok bytes) :
    decodeFrom place none bytes = .ok t := by
  -- on the text, one character at a time; no half of a pair is among its letters
  induction t generalizing place bytes with
  | nil =>
    obtain rfl := Except.ok.inj h
    rfl
  | cons c rest ih =>
    obtain ⟨hAll, rfl⟩ := encode_eq_ok_iff.1 h
    obtain ⟨hFirst, hRest⟩ := List.forall_mem_cons.1 hAll
    cases c with
    | half n => simp [textBytes?] at hFirst
    | char c =>
      have hBytes : textBytes? (char c) = some (encodeChar c) := rfl
      rw [List.filterMap_cons_some hBytes, List.flatten_cons, decodeFrom_encodeChar,
        ih _ (encode_eq_ok_iff.2 ⟨hRest, rfl⟩)]
      rfl

theorem decode_of_encode (h : encode t = .ok bytes) : decode bytes = .ok t := decodeFrom_encode 0 h

/-- The bytes that are written for a text are read as this text. -/
theorem decode_bytesOf (h : IsEncodable t) : decode (bytesOf t) = .ok t :=
  decode_of_encode (encode_eq_bytesOf h)

-- ---------------------------------------------------------------------------
-- Control sequences
-- ---------------------------------------------------------------------------

open ControlSequence (Phase)

/-- No half of a pair goes on with a control sequence. -/
theorem turn_half (phase : Phase) (n : Fin 0x800) : phase.turn (.half n) = .breakOff := by
  have hAbove : ∀ c : Char, c.toNat < 0x80 → ¬ Letter.half n ≤ char c := by
    intro c hc hle
    have : 0xd800 + n.val ≤ c.toNat := hle
    omega
  cases phase <;>
    simp [Phase.turn, ControlSequence.isParameter, ControlSequence.isIntermediate,
      ControlSequence.isFinal, hAbove '?' (by decide), hAbove '/' (by decide), hAbove '~' (by decide)]

/-- What is left out of a text are characters, as long as what is held of a control
sequence is. So leaving control sequences out makes no text encodable, and none
unencodable. -/
theorem any_isHalf_drop (state : Option (Phase × Text)) (t : Text)
    (h : ∀ phase held, state = some (phase, held) → held.any Letter.isHalf = false) :
    (ControlSequence.drop state t).any Letter.isHalf = t.any Letter.isHalf := by
  have hEscape : ControlSequence.escape.isHalf = false := rfl
  -- along the letters; a half breaks a sequence off, and is then kept with what was held
  fun_induction ControlSequence.drop state t with
  | case1 => rfl
  | case2 rest ih =>
    rw [ih (by rintro _ _ ⟨⟩; rfl), List.any_cons, hEscape, Bool.false_or]
  | case3 c rest _ ih => rw [List.any_cons, List.any_cons, ih (by rintro _ _ ⟨⟩)]
  | case4 phase held => rw [List.any_reverse, h _ _ rfl, List.any_nil]
  | case5 phase held c rest next hTurn ih =>
    have hc : c.isHalf = false := by
      cases c with
      | char c => rfl
      | half n => simp [turn_half] at hTurn
    rw [ih (by rintro _ _ ⟨⟩; rw [List.any_cons, hc, h _ _ rfl]; rfl), List.any_cons, hc, Bool.false_or]
  | case6 phase held c rest hTurn ih =>
    have hc : c.isHalf = false := by
      cases c with
      | char c => rfl
      | half n => simp [turn_half] at hTurn
    rw [ih (by rintro _ _ ⟨⟩), List.any_cons, hc, Bool.false_or]
  | case7 phase held c rest _ ihBegun ihNone =>
    rw [List.any_append, List.any_reverse, h _ _ rfl, Bool.false_or]
    split
    · next hc =>
      rw [ihBegun (by rintro _ _ ⟨⟩; exact hc ▸ rfl), List.any_cons, hc, hEscape, Bool.false_or]
    · next hc => rw [List.any_cons, List.any_cons, ihNone (by rintro _ _ ⟨⟩)]

/-- A message can be encoded without its control sequences if and only if it can be
encoded with them. -/
theorem isEncodable_withoutControls_iff : IsEncodable t.withoutControls ↔ IsEncodable t := by
  have hAny : ∀ t : Text, IsEncodable t ↔ t.any Letter.isHalf = false := by
    intro t
    rw [isEncodable_iff, List.any_eq_false]
    simp only [Bool.not_eq_true]
  rw [hAny, hAny, Text.withoutControls, any_isHalf_drop none t (by rintro _ _ ⟨⟩)]

-- ---------------------------------------------------------------------------
-- The way back
-- ---------------------------------------------------------------------------

variable {taken : List UInt8}

theorem toNat_ofNat_of_valid (h : n < 0xd800 ∨ 0xdfff < n ∧ n < 0x110000) :
    (Char.ofNat n).toNat = n := by
  rw [Char.ofNat, dif_pos h]
  rfl

theorem encodeChar_one (h : n < 0x80) : encodeChar (Char.ofNat n) = [UInt8.ofNat n] := by
  have hValid : n < 0xd800 ∨ 0xdfff < n ∧ n < 0x110000 := by omega
  rw [encodeChar, toNat_ofNat_of_valid hValid, if_pos h]

/-- The last bytes of a character, six bits of its code point each. -/
def tailBytes (n : Nat) : Nat → List UInt8
  | 0 => []
  | owed + 1 => tailByte n (0x40 ^ owed) :: tailBytes n owed

/-- A code point of two bytes, given by its first byte and the bits that follow. -/
theorem encodeChar_two (hb : n / 0x40 + 0xc0 = b.toNat) (hLow : 0x80 ≤ n) (hHigh : n < 0x800) :
    encodeChar (Char.ofNat n) = [b] ++ tailBytes n 1 := by
  rw [encodeChar, toNat_ofNat_of_valid (by omega), if_neg (by omega), if_pos hHigh, Nat.add_comm, hb,
    UInt8.ofNat_toNat]
  rfl

theorem encodeChar_three (hb : n / 0x1000 + 0xe0 = b.toNat) (hLow : 0x800 ≤ n) (hHigh : n < 0x10000)
    (hValid : n < 0xd800 ∨ 0xdfff < n) : encodeChar (Char.ofNat n) = [b] ++ tailBytes n 2 := by
  rw [encodeChar, toNat_ofNat_of_valid (by omega), if_neg (by omega), if_neg (by omega),
    if_pos hHigh, Nat.add_comm, hb, UInt8.ofNat_toNat]
  rfl

theorem encodeChar_four (hb : n / 0x40000 + 0xf0 = b.toNat) (hLow : 0x10000 ≤ n)
    (hHigh : n < 0x110000) : encodeChar (Char.ofNat n) = [b] ++ tailBytes n 3 := by
  rw [encodeChar, toNat_ofNat_of_valid (by omega), if_neg (by omega), if_neg (by omega),
    if_neg (by omega), Nat.add_comm, hb, UInt8.ofNat_toNat]
  rfl

/-- What has been taken are the first bytes of each character that the owed ones
can complete. -/
structure Pending.Fits (p : Pending) (taken : List UInt8) : Prop where
  owed : p.owed ≠ 0
  low : 0x80 ≤ p.low
  high : p.high ≤ 0xbf
  bytes : ∀ n, n / 0x40 ^ p.owed = p.bits →
    p.low ≤ 0x80 + n / 0x40 ^ (p.owed - 1) % 0x40 →
    0x80 + n / 0x40 ^ (p.owed - 1) % 0x40 ≤ p.high →
    encodeChar (Char.ofNat n) = taken ++ tailBytes n p.owed

/-- What the first byte of a character begins: the bounds that it sets on the second
byte leave just the code points whose shortest form has this first byte. -/
theorem fits_of_lead {owed low high bits : Nat} (h : lead b.toNat = .pending owed low high bits)
    (place : Nat) : Pending.Fits ⟨b, place, owed, low, high, bits⟩ [b] := by
  unfold lead at h
  -- one case for each row of the table: the bounds in it keep out a shorter form and a surrogate
  split at h
  · simp at h
  split at h
  · simp at h
  split at h
  · obtain ⟨rfl, rfl, rfl, rfl⟩ := Lead.pending.inj h
    exact ⟨by simp, by simp, by simp, fun n (hn : n / 0x40 = b.toNat - 0xc0) _ _ =>
      encodeChar_two (by omega) (by omega) (by omega)⟩
  split at h
  · obtain ⟨rfl, rfl, rfl, rfl⟩ := Lead.pending.inj h
    exact ⟨by simp, by simp, by simp, fun n (hn : n / 0x1000 = 0)
      (hLow : 0xa0 ≤ 0x80 + n / 0x40 % 0x40) _ =>
      encodeChar_three (by omega) (by omega) (by omega) (by omega)⟩
  split at h
  · obtain ⟨rfl, rfl, rfl, rfl⟩ := Lead.pending.inj h
    exact ⟨by simp, by simp, by simp, fun n (hn : n / 0x1000 = 0xd) _
      (hHigh : 0x80 + n / 0x40 % 0x40 ≤ 0x9f) =>
      encodeChar_three (by omega) (by omega) (by omega) (by omega)⟩
  split at h
  · obtain ⟨rfl, rfl, rfl, rfl⟩ := Lead.pending.inj h
    exact ⟨by simp, by simp, by simp, fun n (hn : n / 0x1000 = b.toNat - 0xe0) _ _ =>
      encodeChar_three (by omega) (by omega) (by omega) (by omega)⟩
  split at h
  · obtain ⟨rfl, rfl, rfl, rfl⟩ := Lead.pending.inj h
    exact ⟨by simp, by simp, by simp, fun n (hn : n / 0x40000 = 0)
      (hLow : 0x90 ≤ 0x80 + n / 0x1000 % 0x40) _ =>
      encodeChar_four (by omega) (by omega) (by omega)⟩
  split at h
  · obtain ⟨rfl, rfl, rfl, rfl⟩ := Lead.pending.inj h
    exact ⟨by simp, by simp, by simp, fun n (hn : n / 0x40000 = b.toNat - 0xf0) _ _ =>
      encodeChar_four (by omega) (by omega) (by omega)⟩
  split at h
  · obtain ⟨rfl, rfl, rfl, rfl⟩ := Lead.pending.inj h
    exact ⟨by simp, by simp, by simp, fun n (hn : n / 0x40000 = 4) _
      (hHigh : 0x80 + n / 0x1000 % 0x40 ≤ 0x8f) =>
      encodeChar_four (by omega) (by omega) (by omega)⟩
  · simp at h

/-- A byte that is a character by itself is below 128. -/
theorem eq_of_lead_eq_char {code : Nat} (h : lead b.toNat = .char code) :
    b.toNat < 0x80 ∧ code = b.toNat := by
  unfold lead at h
  split at h
  · next hb => exact ⟨hb, (Lead.char.inj h).symm⟩
  · repeat' split at h
    all_goals simp at h

theorem tailByte_eq {unit : Nat} (h : n / unit % 0x40 = b.toNat - 0x80) (hb : 0x80 ≤ b.toNat) :
    tailByte n unit = b := by
  have hByte : 0x80 + n / unit % 0x40 = b.toNat := by omega
  rw [tailByte, hByte, UInt8.ofNat_toNat]

/-- One of the owed bytes, after which others are owed. What was taken now has this
byte at its end, and the bounds no longer depend on the first byte. -/
theorem Pending.Fits.next (h : p.Fits taken) (hLow : p.low ≤ b.toNat) (hHigh : b.toNat ≤ p.high)
    (hOwed : p.owed ≠ 1) :
    Pending.Fits ⟨p.first, p.start, p.owed - 1, 0x80, 0xbf, p.bits * 64 + (b.toNat - 0x80)⟩
      (taken ++ [b]) := by
  obtain ⟨owed, hOwed'⟩ : ∃ owed, p.owed = owed + 2 :=
    ⟨p.owed - 2, by have := h.owed; omega⟩
  have hBytes := h.bytes
  have hLow' := h.low
  have hHigh' := h.high
  refine ⟨by simp only; omega, by simp, by simp, fun n hn _ _ => ?_⟩
  simp only [hOwed'] at hn hBytes ⊢
  -- taking six bits more is one division more
  have hShift : n / 0x40 ^ (owed + 2) = n / 0x40 ^ (owed + 1) / 0x40 := by
    rw [Nat.div_div_eq_div_mul, ← Nat.pow_succ]
  have hUnit : owed + 2 - 1 = owed + 1 := rfl
  rw [hUnit] at hn hBytes ⊢
  rw [hBytes n (by omega) (by omega) (by omega), tailBytes,
    tailByte_eq (b := b) (by omega) (by omega), List.append_assoc, List.singleton_append]

/-- The last of the owed bytes: what was taken are all the bytes of a character. -/
theorem Pending.Fits.last (h : p.Fits taken) (hLow : p.low ≤ b.toNat) (hHigh : b.toNat ≤ p.high)
    (hOwed : p.owed = 1) :
    encodeChar (Char.ofNat (p.bits * 64 + (b.toNat - 0x80))) = taken ++ [b] := by
  have hBytes := h.bytes (p.bits * 64 + (b.toNat - 0x80))
  have hLow' := h.low
  have hHigh' := h.high
  rw [hOwed, Nat.sub_self, Nat.pow_zero, Nat.pow_one, Nat.div_one] at hBytes
  rw [hBytes (by omega) (by omega) (by omega), tailBytes, tailBytes,
    tailByte_eq (b := b) (by omega) (by omega)]

/-- Bytes that are read as a text are the bytes of that text, together with those
that were taken for a character begun before them. Both parts are carried by one
induction, since each of them needs the other: a character is begun in the first and
completed in the second. -/
theorem encode_of_decodeFrom (bytes : List UInt8) :
    (∀ place t, decodeFrom place none bytes = .ok t → encode t = .ok bytes) ∧
    ∀ place p taken t, p.Fits taken → decodeFrom place (some p) bytes = .ok t →
      encode t = .ok (taken ++ bytes) := by
  induction bytes with
  | nil =>
    refine ⟨fun place t h => ?_, fun place p taken t hp h => ?_⟩
    · rw [decodeFrom, Except.ok.injEq] at h
      rw [← h]
      rfl
    · simp [decodeFrom] at h
  | cons b rest ih =>
    obtain ⟨ihnone, ihsome⟩ := ih
    refine ⟨fun place t h => ?_, fun place p taken t hp h => ?_⟩
    · rw [decodeFrom] at h
      cases hLead : lead b.toNat with
      | none => simp [hLead] at h
      | char code =>
        simp only [hLead] at h
        obtain ⟨u, hu, rfl⟩ := exists_of_map_eq_ok h
        obtain ⟨hb, rfl⟩ := eq_of_lead_eq_char hLead
        rw [encode_char_cons _ (ihnone _ _ hu), encodeChar_one hb, UInt8.ofNat_toNat]
        rfl
      | pending owed low high bits =>
        simp only [hLead] at h
        exact ihsome _ _ _ _ (fits_of_lead hLead place) h
    · rw [decodeFrom] at h
      by_cases hBounds : p.low ≤ b.toNat ∧ b.toNat ≤ p.high
      · rw [if_pos hBounds] at h
        -- the byte completes its character, or is one more of those that `Fits` counts
        by_cases hOwed : p.owed = 1
        · simp only [hOwed, if_true] at h
          obtain ⟨u, hu, rfl⟩ := exists_of_map_eq_ok h
          rw [encode_char_cons _ (ihnone _ _ hu), hp.last hBounds.1 hBounds.2 hOwed,
            List.append_assoc, List.singleton_append]
        · simp only [hOwed, if_false] at h
          rw [ihsome _ _ _ _ (hp.next hBounds.1 hBounds.2 hOwed) h, List.append_assoc,
            List.singleton_append]
      · rw [if_neg hBounds] at h
        simp at h

/-- A text has one spelling in bytes: those that are read as it are those it is
encoded as. So the lock file that is read back after a write is the text that
was written. -/
theorem decode_eq_ok_iff : decode bytes = .ok t ↔ encode t = .ok bytes :=
  ⟨(encode_of_decodeFrom bytes).1 0 t, decode_of_encode⟩

end Utf8

end Lockstep
