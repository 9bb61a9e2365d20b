import Lockstep.Decimal.Binary64
import Lockstep.Text.Basic

/-!
# Lockstep — the shortest decimal of a value

A finite value is written with the fewest digits that read back as it, and of
those with the nearest. The interval of the numbers that round to the value is
taken exactly; for one digit, two digits and so on the two neighbours of the
value on that decimal grid are tried.

The layout is positional from `0.0001` up to sixteen places before the point,
and otherwise has one digit before the point and a signed exponent of at least
two digits. A whole number has a point and a zero.
-/

namespace Lockstep

namespace Binary64

/-- A decimal, `digits * 10 ^ exponent`. -/
structure Decimal where
  digits : Nat
  exponent : Int
  deriving DecidableEq, Repr

/-- The numbers that round to a value, and the value, all as multiples of `1 / den`. -/
structure Interval where
  low : Nat
  value : Nat
  high : Nat
  den : Nat
  /-- Whether the ends belong to the interval. -/
  closed : Bool

/-- The interval of a positive value: half a unit of the last place to each side, or
a quarter below the least mantissa of a binade, where the values lie closer. -/
def intervalOf (m : Nat) (e : Int) : Interval :=
  let below := if m = Nat.pow 2 52 ∧ minExponent < e then 1 else 2
  let closed := m % 2 = 0
  match e - 2 with
  | .ofNat n => ⟨(4 * m - below) * Nat.pow 2 n, 4 * m * Nat.pow 2 n, (4 * m + 2) * Nat.pow 2 n, 1, closed⟩
  | .negSucc n => ⟨4 * m - below, 4 * m, 4 * m + 2, Nat.pow 2 (n + 1), closed⟩

/-- `candidate * 10 ^ g` and the interval's numbers over one denominator: the
candidate, then the factor of the interval's numbers. -/
def commonScale (i : Interval) (g : Int) (candidate : Nat) : Nat × Nat :=
  match g with
  | .ofNat n => (candidate * Nat.pow 10 n * i.den, 1)
  | .negSucc n => (candidate * i.den, Nat.pow 10 (n + 1))

/-- Whether `candidate * 10 ^ g` rounds to the value. -/
def readsBack (i : Interval) (g : Int) (candidate : Nat) : Bool :=
  let (c, f) := commonScale i g candidate
  if i.closed then i.low * f ≤ c && c ≤ i.high * f else i.low * f < c && c < i.high * f

/-- The distance of `candidate * 10 ^ g` from the value. -/
def distance (i : Interval) (g : Int) (candidate : Nat) : Nat :=
  let (c, f) := commonScale i g candidate
  let v := i.value * f
  if c ≤ v then v - c else c - v

/-- The number of decimal digits, none for zero. -/
def digitCount (n : Nat) : Nat := if n = 0 then 0 else (Nat.toDigits 10 n).length

/-- The power of ten of the leading digit of a positive quotient. -/
def leadingPower (num den : Nat) : Int :=
  if den ≤ num then (digitCount (num / den) : Int) - 1
  else -(digitCount ((den + num - 1) / num - 1) : Int)

/-- The neighbour of the value on the grid of `10 ^ g` that reads back, the nearer
of two, the even one of two as near. -/
def onGrid? (i : Interval) (g : Int) : Option Decimal :=
  let (one, f) := commonScale i g 1
  let low := i.value * f / one
  let candidates := [low, low + 1].filter (readsBack i g)
  match candidates with
  | [] => none
  | [c] => some ⟨c, g⟩
  | c :: d :: _ =>
    let dc := distance i g c
    let dd := distance i g d
    some ⟨if dc < dd then c else if dd < dc then d else if c % 2 = 0 then c else d, g⟩

/-- The shortest decimal of a positive value; seventeen digits always read back. -/
def shortest (m : Nat) (e : Int) : Decimal :=
  let i := intervalOf m e
  let top := leadingPower i.value i.den
  ((List.range 17).findSome? fun (k : Nat) => onGrid? i (top - k)).getD ⟨m, 0⟩

/-- The digits of a decimal without the zeros at their end, and the place of the
point: the value is `0.digits * 10 ^ point`. -/
def layoutDigits (d : Decimal) : Text × Int :=
  let ds := Text.ofNat d.digits
  (Text.trimEndBy (· == char '0') ds, ds.length + d.exponent)

/-- The exponent with its sign and at least two digits. -/
def exponentText (e : Int) : Text :=
  let ds := Text.ofNat e.natAbs
  (if e < 0 then char '-' else char '+') :: (if ds.length < 2 then char '0' :: ds else ds)

/-- A positive decimal in one of the two layouts. -/
def layout (d : Decimal) : Text :=
  let (ds, point) := layoutDigits d
  if point ≤ -4 ∨ 16 < point then
    let lead := ds.take 1
    let tail := ds.drop 1
    lead ++ (if tail.isEmpty then [] else char '.' :: tail) ++ char 'e' :: exponentText (point - 1)
  else if point ≤ 0 then
    "0.".text ++ List.replicate (-point).toNat (char '0') ++ ds
  else
    let n := point.toNat
    if ds.length ≤ n then ds ++ List.replicate (n - ds.length) (char '0') ++ ".0".text
    else ds.take n ++ char '.' :: ds.drop n

/-- The text of a value, with these words for what is no finite number. -/
def text (nanText infiniteText : Text) : Binary64 → Text
  | .nan => nanText
  | .infinite negative => if negative then char '-' :: infiniteText else infiniteText
  | .finite negative m e =>
    let body := if m = 0 then "0.0".text else layout (shortest m e)
    if negative then char '-' :: body else body

end Binary64

end Lockstep
