import Lockstep.Text.Basic

/-!
# Lockstep — UTF-8

Texts as bytes. A character has one to four bytes. Half of a surrogate pair has
none, so that a text with one cannot be encoded; it is refused at the first run of
such halves. In the name of a file some halves have a byte after all: they stand for
bytes of a name that is no UTF-8.

The decoder takes one byte at a time and refuses the first byte that no character
can have at its place; what it refuses is the character begun before it, or the byte
itself if none was begun.

* `encode`, `decode` — the two directions.
* `bytesOf` — the bytes of a text, or none.
* `encodeName`, `nameSize` — the bytes of a name, and how many they are.
* `EncodeError.message`, `DecodeError.message`, `DecodeReason.describe` — the words for a refusal.
-/

namespace Lockstep

namespace Utf8

-- ---------------------------------------------------------------------------
-- Encoding
-- ---------------------------------------------------------------------------

/-- A byte after the first of a character: the six bits of its code point from a unit on. -/
def tailByte (code unit : Nat) : UInt8 := UInt8.ofNat (0x80 + code / unit % 0x40)

/-- The bytes of a character. -/
def encodeChar (c : Char) : List UInt8 :=
  let n := c.toNat
  if n < 0x80 then [UInt8.ofNat n]
  else if n < 0x800 then [UInt8.ofNat (0xc0 + n / 0x40), tailByte n 1]
  else if n < 0x10000 then [UInt8.ofNat (0xe0 + n / 0x1000), tailByte n 0x40, tailByte n 1]
  else [UInt8.ofNat (0xf0 + n / 0x40000), tailByte n 0x1000, tailByte n 0x40, tailByte n 1]

/-- The bytes of a letter of a text. -/
def textBytes? : Letter → Option (List UInt8)
  | .char c => some (encodeChar c)
  | .half _ => none

/-- The bytes of a letter in the name of a file, where the halves from `0xdc80` to
`0xdcff` stand for one byte each. -/
def nameBytes? : Letter → Option (List UInt8)
  | .char c => some (encodeChar c)
  | .half n =>
    if 0x480 ≤ n.val ∧ n.val ≤ 0x4ff then some [UInt8.ofNat (n.val - 0x400)] else none

/-- The letters that have no bytes: the first of them, its place, and the place
after the last half of a pair that follows it. -/
structure EncodeError where
  first : Letter
  start : Nat
  stop : Nat
  deriving DecidableEq, Repr

/-- What is reported about letters that have no bytes. -/
def EncodeError.message (e : EncodeError) : Text :=
  let digits := String.ofList (Nat.toDigits 16 e.first.code)
  if e.start + 1 = e.stop then
    s!"'utf-8' codec can't encode character '\\u{digits}' in position {e.start}: surrogates not allowed".text
  else
    s!"'utf-8' codec can't encode characters in position {e.start}-{e.stop - 1}: surrogates not allowed".text

/-- The bytes of the letters from a place on. -/
def encodeFrom (bytes? : Letter → Option (List UInt8)) (place : Nat) :
    Text → Except EncodeError (List UInt8)
  | [] => .ok []
  | c :: rest =>
    match bytes? c with
    | some bytes => (encodeFrom bytes? (place + 1) rest).map (bytes ++ ·)
    | none => .error ⟨c, place, place + 1 + (rest.takeWhile Letter.isHalf).length⟩

/-- The bytes of a text. -/
def encode (t : Text) : Except EncodeError (List UInt8) := encodeFrom textBytes? 0 t

/-- The bytes of a text; none, if it cannot be encoded. -/
def bytesOf (t : Text) : List UInt8 :=
  match encode t with
  | .ok bytes => bytes
  | .error _ => []

/-- The bytes of a text as the name of a file, or as a path. -/
def encodeName (t : Text) : Except EncodeError (List UInt8) := encodeFrom nameBytes? 0 t

/-- The number of bytes of a text as the name of a file, or as a path. -/
def nameSize (t : Text) : Nat := (t.filterMap nameBytes?).flatten.length

-- ---------------------------------------------------------------------------
-- Decoding
-- ---------------------------------------------------------------------------

/-- Why bytes are no text. -/
inductive DecodeReason where
  | badStart
  | badTail
  | cutShort
  deriving DecidableEq, Repr

/-- The words for a reason. -/
def DecodeReason.describe : DecodeReason → String
  | .badStart => "invalid start byte"
  | .badTail => "invalid continuation byte"
  | .cutShort => "unexpected end of data"

/-- The bytes that are at fault: the first of them, its place, and the place after the last. -/
structure DecodeError where
  first : UInt8
  start : Nat
  stop : Nat
  reason : DecodeReason
  deriving DecidableEq, Repr

/-- What is reported about bytes that are no text. -/
def DecodeError.message (e : DecodeError) : Text :=
  let digits := String.ofList (Nat.toDigits 16 e.first.toNat)
  if e.start + 1 = e.stop then
    s!"'utf-8' codec can't decode byte 0x{digits} in position {e.start}: {e.reason.describe}".text
  else
    s!"'utf-8' codec can't decode bytes in position {e.start}-{e.stop - 1}: {e.reason.describe}".text

/-- A character that has been begun. -/
structure Pending where
  first : UInt8
  start : Nat
  /-- How many bytes are still to come. -/
  owed : Nat
  /-- The least and the greatest value of the next byte. -/
  low : Nat
  high : Nat
  /-- The bits of the code point so far. -/
  bits : Nat
  deriving DecidableEq, Repr

/-- What a byte can begin. -/
inductive Lead where
  | char (code : Nat)
  | pending (owed low high bits : Nat)
  | none
  deriving DecidableEq, Repr

/-- What a byte begins. The bounds of the second byte rule out code points that a
shorter form has, surrogates, and code points that do not exist. -/
def lead (b : Nat) : Lead :=
  if b < 0x80 then .char b
  else if b < 0xc2 then .none
  else if b < 0xe0 then .pending 1 0x80 0xbf (b - 0xc0)
  else if b = 0xe0 then .pending 2 0xa0 0xbf 0
  else if b = 0xed then .pending 2 0x80 0x9f 0xd
  else if b < 0xf0 then .pending 2 0x80 0xbf (b - 0xe0)
  else if b = 0xf0 then .pending 3 0x90 0xbf 0
  else if b < 0xf4 then .pending 3 0x80 0xbf (b - 0xf0)
  else if b = 0xf4 then .pending 3 0x80 0x8f 4
  else .none

/-- The text of the bytes from a place on, after a character that may have been begun. -/
def decodeFrom (place : Nat) : Option Pending → List UInt8 → Except DecodeError Text
  | none, [] => .ok []
  | some p, [] => .error ⟨p.first, p.start, place, .cutShort⟩
  | none, b :: rest =>
    match lead b.toNat with
    | .char code => (decodeFrom (place + 1) none rest).map (char (Char.ofNat code) :: ·)
    | .pending owed low high bits => decodeFrom (place + 1) (some ⟨b, place, owed, low, high, bits⟩) rest
    | .none => .error ⟨b, place, place + 1, .badStart⟩
  | some p, b :: rest =>
    if p.low ≤ b.toNat ∧ b.toNat ≤ p.high then
      let bits := p.bits * 64 + (b.toNat - 0x80)
      if p.owed = 1 then (decodeFrom (place + 1) none rest).map (char (Char.ofNat bits) :: ·)
      else decodeFrom (place + 1) (some { p with owed := p.owed - 1, low := 0x80, high := 0xbf, bits := bits }) rest
    else .error ⟨p.first, p.start, place, .badTail⟩

/-- The text of bytes. -/
def decode (bytes : List UInt8) : Except DecodeError Text := decodeFrom 0 none bytes

end Utf8

end Lockstep
