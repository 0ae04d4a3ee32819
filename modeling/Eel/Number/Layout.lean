/-
How the digits of a number are laid out as text.

A layout says which leading exponents are written positionally, what is appended to
a positional text that has no fraction, and how wide an exponent is at least.  Two
layouts are in use.  `Layout.value` is the one of computed values: positional from
a millionth up to twenty-one digits, nothing behind a whole number, exponents
without padding.  `Layout.item` is the one of decimals that stand in a list of
source lines.
-/
import Eel.Number.Decimal
import Eel.Number.Bits

namespace Eel.Number

/-- The choices in writing a decimal. -/
structure Layout where
  /-- The least leading exponent written positionally. -/
  least : Int
  /-- The greatest leading exponent written positionally. -/
  greatest : Int
  /-- What follows a positional text without a fraction. -/
  wholeMark : List Char
  /-- The least number of digits of a written exponent. -/
  exponentWidth : Nat

/-- The layout of computed values. -/
def Layout.value : Layout := ⟨-6, 20, [], 1⟩

/-- The layout of decimals in a list of source lines. -/
def Layout.item : Layout := ⟨-4, 15, ['.', '0'], 2⟩

/-- A natural number in decimal. -/
def natText (n : Nat) : List Char := Nat.toDigits 10 n

/-- `ds · 10 ^ exponent` without an exponent mark. -/
def Layout.positional (l : Layout) (ds : List Char) (exponent : Int) : List Char :=
  if 0 ≤ exponent then ds ++ List.replicate exponent.toNat '0' ++ l.wholeMark
  else
    let fraction := (-exponent).toNat
    if fraction < ds.length then
      ds.take (ds.length - fraction) ++ '.' :: ds.drop (ds.length - fraction)
    else
      '0' :: '.' :: (List.replicate (fraction - ds.length) '0' ++ ds)

/-- A leading digit, the others behind a point, and the exponent of the leading one. -/
def Layout.exponential (l : Layout) (ds : List Char) (leading : Int) : List Char :=
  let mantissa :=
    match ds with
    | d :: e :: es => d :: '.' :: e :: es
    | ds => ds
  let exponent := natText leading.natAbs
  mantissa ++ 'e' :: (if leading < 0 then '-' else '+')
    :: (List.replicate (l.exponentWidth - exponent.length) '0' ++ exponent)

/-- A decimal as text. -/
def Layout.write (l : Layout) (d : Decimal) : List Char :=
  let ds := natText d.digits
  let leading := d.exponent + (ds.length - 1 : Nat)
  if l.least ≤ leading && leading ≤ l.greatest then l.positional ds d.exponent
  else l.exponential ds leading

/-- A sign in front of a text. -/
def signed (negative : Bool) (cs : List Char) : List Char :=
  if negative then '-' :: cs else cs

/-- A computed number as text; the sign of a zero is not shown. -/
def text (x : Float) : String :=
  if x.isNaN then "NaN"
  else if x.isInf then if isNegative x then "-Infinity" else "Infinity"
  else if isWhole x && size x < Nat.pow 10 21 * unitsPerOne then
    let n := size x / unitsPerOne
    String.ofList (signed (isNegative x && n != 0) (natText n))
  else
    String.ofList (signed (isNegative x) (Layout.value.write (shortest (place x))))

/-- A decimal of a list of source lines as text. -/
def itemText (x : Float) : String :=
  if x.isNaN then "nan"
  else if x.isInf then if isNegative x then "-inf" else "inf"
  else
    let d := if place x = 0 then ⟨0, 0⟩ else shortest (place x)
    String.ofList (signed (isNegative x) (Layout.item.write d))

end Eel.Number
