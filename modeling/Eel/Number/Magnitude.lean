/-
The non-negative double-precision numbers, counted upwards from zero.

A magnitude is named by its place in the count: zero has place 0, the smallest
positive number place 1, and so on up to infinity at `top`.  The place is also what
the low 63 bits of the number spell.  `units` gives the value at a place as a
multiple of the smallest positive number, so all comparisons of values are exact
comparisons of natural numbers.  The value that `units` gives at `top` is the power
of two where the format ends, which makes rounding to infinity an instance of
rounding to the nearest place.

Values that need not be a whole number of units are given as a quotient of *half*
units: the midpoint of two neighbouring places is then a whole number too.
-/
namespace Eel.Number

/-- The place of infinity. -/
def top : Nat := 0x7FF * Nat.pow 2 52

/-- One, in units. -/
def unitsPerOne : Nat := Nat.pow 2 1074

/-- The value at a place, as a multiple of the smallest positive number. -/
def units (place : Nat) : Nat :=
  if place < Nat.pow 2 52 then place
  else (Nat.pow 2 52 + place % Nat.pow 2 52) * Nat.pow 2 (place / Nat.pow 2 52 - 1)

/-- The last place whose value is at most `n` units. -/
def placeBelow (n : Nat) : Nat :=
  let shift := n.log2 - 52
  shift * Nat.pow 2 52 + n / Nat.pow 2 shift

/-- Twice the midpoint between a place and the next one, in units. -/
def midpoint (place : Nat) : Nat := units place + units (place + 1)

/-- The place nearest to `num / den` half units; of two equally near, the even one. -/
def nearest (num den : Nat) : Nat :=
  let place := placeBelow (num / (2 * den))
  let rounded :=
    match compare num (midpoint place * den) with
    | .lt => place
    | .gt => place + 1
    | .eq => if place % 2 = 0 then place else place + 1
  min rounded top

@[simp] theorem units_zero : units 0 = 0 := rfl

theorem nearest_le_top (num den : Nat) : nearest num den ≤ top := by
  unfold nearest
  exact Nat.min_le_right _ _

end Eel.Number
