/-
Decimal numbers `digits · 10 ^ exponent`, and their way to and from places.

`Decimal.place` reads a decimal as the nearest double-precision number.
`shortest` goes the other way: of all decimals that read back as a given place it
takes the one with the fewest digits, and of those the nearest.  It looks at powers
of ten from the largest down and stops at the first one that has a multiple inside
the stretch of values around the place that round to it; on each power only the two
multiples next to the value need a look.
-/
import Eel.Number.Magnitude

namespace Eel.Number

/-- The number `digits · 10 ^ exponent`. -/
structure Decimal where
  digits : Nat
  exponent : Int
deriving DecidableEq, Repr

/-- A power of ten as a quotient of half units. -/
def powerOfTen (k : Int) : Nat × Nat :=
  if 0 ≤ k then (Nat.pow 10 k.toNat * (2 * unitsPerOne), 1)
  else (2 * unitsPerOne, Nat.pow 10 (-k).toNat)

/--
The place nearest to a decimal.

Decimals far outside the format's range are settled by their exponents alone, so a
long exponent never asks for a huge power.
-/
def Decimal.place (d : Decimal) : Nat :=
  if d.digits = 0 then 0
  else if 400 < d.exponent then top
  else if d.exponent + d.digits.log2 < -1100 then 0
  else nearest (d.digits * (powerOfTen d.exponent).1) (powerOfTen d.exponent).2

/-! ### Shortest decimals -/

/--
Whether `num / den` half units rounds to `place`.

The ends of the stretch round to the even place, so they belong to it exactly when
the place is even.
-/
def roundsTo (place num den : Nat) : Bool :=
  if place % 2 = 0 then
    midpoint (place - 1) * den ≤ num && num ≤ midpoint place * den
  else
    midpoint (place - 1) * den < num && num < midpoint place * den

/-- The multiple of `10 ^ k` that rounds to `place` and is nearest to its value, if any. -/
def multiple? (place : Nat) (k : Int) : Option Nat :=
  let (num, den) := powerOfTen k
  let value := 2 * units place * den
  let below := value / num
  let above := below + 1
  match roundsTo place (below * num) den, roundsTo place (above * num) den with
  | false, false => none
  | true, false => some below
  | false, true => some above
  | true, true =>
    match compare (value - below * num) (above * num - value) with
    | .lt => some below
    | .gt => some above
    | .eq => some (if below % 2 = 0 then below else above)

/--
The first decimal found on the powers `k`, `k - 1`, … after `tries` of them the
exact expansion, which always exists.
-/
def shortestFrom (place : Nat) : (tries : Nat) → (k : Int) → Decimal
  | 0, _ => ⟨units place * Nat.pow 5 1074, -1074⟩
  | tries + 1, k =>
    match multiple? place k with
    | some n => ⟨n, k⟩
    | none => shortestFrom place tries (k - 1)

/--
A power of ten above every value that rounds to `place`.

The exponent comes from the length of the value in binary: `30103 / 100000` is a little
more than the decimal logarithm of two.
-/
def powerAbove (place : Nat) : Int := ((units place).log2 + 2 - 1074 : Int) * 30103 / 100000 + 1

/-- The decimal with the fewest digits that reads back as `place`; seventeen always suffice. -/
def shortest (place : Nat) : Decimal := shortestFrom place 22 (powerAbove place)

end Eel.Number
