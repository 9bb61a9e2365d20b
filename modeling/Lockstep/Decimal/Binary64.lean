/-!
# Lockstep — 64-bit binary floating point

A value is not a number, infinite, or a sign with `mantissa * 2 ^ exponent`,
where the mantissa has at most 53 bits and the exponent is at least -1074. All
arithmetic on it is exact arithmetic on natural numbers.

* `ofRatio`   — the value nearest to a quotient, a tie going to the even mantissa.
* `ofDecimal` — the value nearest to `digits * 10 ^ exponent`.
* `toInt?`    — the integer that a value is, if it has no fraction.
-/

namespace Lockstep

/-- A value of the 64-bit binary floating point format. -/
inductive Binary64 where
  | nan
  | infinite (negative : Bool)
  | finite (negative : Bool) (mantissa : Nat) (exponent : Int)
  deriving DecidableEq, Repr, Inhabited

namespace Binary64

/-- The least exponent of two. -/
def minExponent : Int := -1074

/-- The greatest exponent of two. -/
def maxExponent : Int := 971

/-- Zero, with a sign. -/
def zero (negative : Bool) : Binary64 := .finite negative 0 minExponent

/-- `num / (den * 2 ^ e)` as a quotient of natural numbers. -/
def scale (num den : Nat) (e : Int) : Nat × Nat :=
  match e with
  | .ofNat n => (num, den * Nat.pow 2 n)
  | .negSucc n => (num * Nat.pow 2 (n + 1), den)

/-- The natural number nearest to a quotient, a tie going to the even one. -/
def roundDiv (num den : Nat) : Nat :=
  let q := num / den
  let r := num % den
  if 2 * r < den then q else if den < 2 * r then q + 1 else if q % 2 = 0 then q else q + 1

/-- The value nearest to a positive quotient. -/
def ofRatio (negative : Bool) (num den : Nat) : Binary64 :=
  let guess : Int := (Nat.log2 num : Int) - (Nat.log2 den : Int) - 52
  let (a, b) := scale num den guess
  let e := max minExponent (if a < b * Nat.pow 2 52 then guess - 1 else guess)
  let (a, b) := scale num den e
  let m := roundDiv a b
  let (m, e) := if m = Nat.pow 2 53 then (Nat.pow 2 52, e + 1) else (m, e)
  if maxExponent < e then .infinite negative else .finite negative m e

/-- The value nearest to `digits * 10 ^ exponent`. Beyond 400 places before or after
the point every value overflows or vanishes. -/
def ofDecimal (negative : Bool) (digits : Nat) (exponent : Int) : Binary64 :=
  if digits = 0 then zero negative
  else
    let places : Int := (Nat.toDigits 10 digits).length + exponent
    if 400 < places then .infinite negative
    else if places < -400 then zero negative
    else
      match exponent with
      | .ofNat n => ofRatio negative (digits * Nat.pow 10 n) 1
      | .negSucc n => ofRatio negative digits (Nat.pow 10 (n + 1))

/-- The integer that a value is, if it is finite and has no fraction. -/
def toInt? : Binary64 → Option Int
  | .finite negative m e =>
    let magnitude? : Option Nat :=
      match e with
      | .ofNat n => some (m * Nat.pow 2 n)
      | .negSucc n => if m % Nat.pow 2 (n + 1) = 0 then some (m / Nat.pow 2 (n + 1)) else none
    magnitude?.map fun k => if negative then -(k : Int) else (k : Int)
  | _ => none

end Binary64

end Lockstep
