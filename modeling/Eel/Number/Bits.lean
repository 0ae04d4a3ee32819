/-
Double-precision numbers as a sign and a place.

Arithmetic and comparison are those of `Float`.  What is printed, read and rounded
to whole numbers goes through the sign and the place, where everything is exact.
-/
import Eel.Number.Magnitude

namespace Eel.Number

/-- The place of a number's absolute value; meaningless for NaN. -/
def place (x : Float) : Nat := x.toBits.toNat % Nat.pow 2 63

/-- Whether the sign is negative, for zeros and infinities too. -/
def isNegative (x : Float) : Bool := Nat.pow 2 63 ≤ x.toBits.toNat

/-- The number with a given sign and place. -/
def ofPlace (negative : Bool) (place : Nat) : Float :=
  Float.ofBits (UInt64.ofNat (if negative then Nat.pow 2 63 + place else place))

/-- Infinity of either sign. -/
def infinity (negative : Bool) : Float := ofPlace negative top

/-- The number that is not a number. -/
def nan : Float := Float.ofBits 0x7FF8000000000000

/-- The absolute value of a finite number, in units. -/
def size (x : Float) : Nat := units (place x)

/-- The number nearest to a whole number. -/
def ofInt (n : Int) : Float := ofPlace (n < 0) (nearest (n.natAbs * (2 * unitsPerOne)) 1)

/-- Whether a finite number is whole. -/
def isWhole (x : Float) : Bool := size x % unitsPerOne == 0

/-- The greatest whole number that is at most a finite number. -/
def floorInt (x : Float) : Int :=
  if isNegative x then -((size x + (unitsPerOne - 1)) / unitsPerOne : Nat)
  else (size x / unitsPerOne : Nat)

/-- The least whole number that is at least a finite number. -/
def ceilInt (x : Float) : Int :=
  if isNegative x then -(size x / unitsPerOne : Nat)
  else ((size x + (unitsPerOne - 1)) / unitsPerOne : Nat)

/-- The whole number nearest to the absolute value of a finite number, a half going to even. -/
def roundedSize (x : Float) : Nat :=
  let whole := size x / unitsPerOne
  match compare (2 * (size x % unitsPerOne)) unitsPerOne with
  | .lt => whole
  | .gt => whole + 1
  | .eq => if whole % 2 = 0 then whole else whole + 1

/-- The sign of one number on the place of another. -/
def withSignOf (sign x : Float) : Float := ofPlace (isNegative sign) (place x)

end Eel.Number
