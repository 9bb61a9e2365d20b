import Lockstep.Text.Basic

/-!
# Lockstep — reading whole numbers

A whole number is written with decimal digits of any script, an underscore
between two digits where one likes, a sign in front, and blanks around; the four
information separators do not count as blanks here. It has a limited number of
digits, leading zeros included.

Each script of version 14 of Unicode has its ten digits in a row, so that the code
points of the zeros tell everything.

* `decimalDigit?`    — the value of a digit.
* `Text.toInteger?`  — the number that a text writes.
-/

namespace Lockstep

-- ---------------------------------------------------------------------------
-- Digits
-- ---------------------------------------------------------------------------

/-- The code points of the zeros, in increasing order. -/
def digitZeros : List Nat :=
  [0x30, 0x660, 0x6f0, 0x7c0, 0x966, 0x9e6, 0xa66, 0xae6, 0xb66, 0xbe6, 0xc66, 0xce6, 0xd66, 0xde6,
   0xe50, 0xed0, 0xf20, 0x1040, 0x1090, 0x17e0, 0x1810, 0x1946, 0x19d0, 0x1a80, 0x1a90, 0x1b50,
   0x1bb0, 0x1c40, 0x1c50, 0xa620, 0xa8d0, 0xa900, 0xa9d0, 0xa9f0, 0xaa50, 0xabf0, 0xff10, 0x104a0,
   0x10d30, 0x11066, 0x110f0, 0x11136, 0x111d0, 0x112f0, 0x11450, 0x114d0, 0x11650, 0x116c0,
   0x11730, 0x118e0, 0x11950, 0x11c50, 0x11d50, 0x11da0, 0x16a60, 0x16ac0, 0x16b50, 0x1d7ce,
   0x1d7d8, 0x1d7e2, 0x1d7ec, 0x1d7f6, 0x1e140, 0x1e2f0, 0x1e950, 0x1fbf0]

/-- The value of a decimal digit of any script. -/
def decimalDigit? (c : Letter) : Option Nat :=
  (digitZeros.find? fun z => z ≤ c.code && c.code ≤ z + 9).map fun z => c.code - z

-- ---------------------------------------------------------------------------
-- Numbers
-- ---------------------------------------------------------------------------

namespace Text

/-- The greatest number of digits of a whole number. -/
def maxIntegerDigits : Nat := 4300

/-- The characters that may stand around a number. -/
def isNumberBlank (c : Letter) : Bool := isBlank c && !(char '\x1c' ≤ c && c ≤ char '\x1f')

/-- The values of digits with single underscores between them. -/
def digitValues? (t : Text) : Option (List Nat) :=
  (t.splitOn (char '_')).foldr
    (fun group rest? => rest?.bind fun rest =>
      if group.isEmpty then none else (group.mapM decimalDigit?).map (· ++ rest))
    (some [])

/-- The sign of a number, and what comes after it. -/
def splitSign : Text → Bool × Text
  | char '-' :: rest => (true, rest)
  | char '+' :: rest => (false, rest)
  | t => (false, t)

/-- The whole number that a text writes. -/
def toInteger? (t : Text) : Option Int :=
  let (negative, body) := splitSign (t.trimBy isNumberBlank)
  match digitValues? body with
  | none => none
  | some ds =>
    if maxIntegerDigits < ds.length then none
    else
      let n : Nat := ds.foldl (fun n d => 10 * n + d) 0
      some (if negative then -(n : Int) else n)

end Text

end Lockstep
