/-
Functions of numbers that say when they have no value.

A NaN among the arguments is carried through without complaint.  Otherwise a
function fails where it is not defined, and where a finite argument would give an
infinite result.  Sums and products are the exception: they become infinite in
silence.
-/
import Eel.Fault
import Eel.Number.Bits

namespace Eel.Number

/--
A function made to fail where it is undefined or infinite.

`grows` says that the function can pass the largest number at an ordinary argument,
so that an infinite result means a value out of range and not a pole.
-/
def checked (grows : Bool) (f : Float → Float) (x : Float) : Except Fault Float :=
  let y := f x
  if y.isNaN && !x.isNaN then .error .outOfDomain
  else if y.isInf && x.isFinite then .error (if grows then .outOfRange else .outOfDomain)
  else .ok y

/-- The quotient of two numbers. -/
def divide (x y : Float) : Except Fault Float :=
  if y == 0 then .error .divisionByZero else .ok (x / y)

/-- A number raised to a power. -/
def power (x y : Float) : Except Fault Float :=
  let z := Float.pow x y
  if !(x.isFinite && y.isFinite) then .ok z
  else if z.isNaN then .error .outOfDomain
  else if z.isInf then .error (if x == 0 then .outOfDomain else .outOfRange)
  else .ok z

/-- The remainder of a division towards zero; it has the sign of the dividend and is exact. -/
def remainder (x y : Float) : Except Fault Float :=
  if x.isNaN || y.isNaN then .ok nan
  else if x.isInf || y == 0 then .error .outOfDomain
  else if y.isInf then .ok x
  else .ok (ofPlace (isNegative x) (placeBelow (size x % size y)))

/-- The smaller of two numbers, the first one if neither is. -/
def lesser (x y : Float) : Float := if y < x then y else x

/-- The larger of two numbers, the first one if neither is. -/
def greater (x y : Float) : Float := if y > x then y else x

/-- A function to the whole numbers, undefined at infinities and NaN. -/
def whole (f : Float → Int) (x : Float) : Except Fault Float :=
  if x.isNaN then .error .undefinedWhole
  else if x.isInf then .error .infiniteWhole
  else .ok (ofInt (f x))

/-- The whole number at or below. -/
def floor (x : Float) : Except Fault Float := whole floorInt x

/-- The whole number at or above. -/
def ceil (x : Float) : Except Fault Float := whole ceilInt x

/-- The whole number at or below the number half a unit further on. -/
def round (x : Float) : Except Fault Float := floor (x + 0.5)

/-- The cube root, exact where it is whole. -/
def cubeRoot (x : Float) : Float :=
  if !x.isFinite then x
  else
    let root := Float.pow x.abs (1 / 3)
    let n := roundedSize root
    if Nat.pow n 3 * unitsPerOne = size x then withSignOf x (ofInt n) else withSignOf x root

end Eel.Number
