/-
Commands that compare texts, reason with truth values, and take texts apart.

Comparisons by size, and the loose equality, compare as numbers when both sides are
numbers and by code points otherwise.
-/
import Eel.Builtin.Value

namespace Eel.Builtin

/-- Compares as numbers if both sides are numbers, and as texts if not. -/
def eitherWay (numbers : Float → Float → Bool) (texts : String → String → Bool) (a b : String) :
    Bool :=
  match Number.parse? a, Number.parse? b with
  | some x, some y => numbers x y
  | _, _ => texts a b

/-- Equality as numbers if possible. -/
def looselyEqual (a b : String) : Bool := eitherWay (· == ·) (· == ·) a b

/-- The order as numbers if possible, by code points if not. -/
def isGreater (a b : String) : Bool := eitherWay (fun x y => x > y) (fun a b => a > b) a b

/-- The order as numbers if possible, by code points if not. -/
def isLess (a b : String) : Bool := eitherWay (fun x y => x < y) (fun a b => a < b) a b

/-- The second text if the first counts as true, and the first if not. -/
def both (a b : String) : String := if isTrue a then b else a

/-- The first text if it counts as true, and the second if not. -/
def either (a b : String) : String := if isTrue a then a else b

/-- A number at least zero and below one. -/
def drawNumber : Handler := fun chance _ => .ok (.ofValue (Number.text chance.unit))

/-- A command on one parameter. -/
def unary (name : String) (f : String → Except Fault String) : Command where
  name
  arity := some 1
  handler := ofOne f

/-- A command on two parameters. -/
def binary (name : String) (f : String → String → String) : Command where
  name
  arity := some 2
  handler := ofTwo fun a b => .ok (f a b)

/-- The commands of this module. -/
def textual : List Command := [
  binary "equals" fun a b => truthText (a == b),
  binary "looselyequals" fun a b => truthText (looselyEqual a b),
  binary "greater" fun a b => truthText (isGreater a b),
  binary "less" fun a b => truthText (isLess a b),
  unary "not" fun a => .ok (truthText (!isTrue a)),
  binary "and" both,
  binary "or" either,
  unary "number" fun a => (numberOf a).map Number.text,
  unary "string" .ok,
  binary "join" (· ++ ·),
  unary "length" fun a => .ok (toString a.length),
  { name := "random", arity := some 0, handler := drawNumber }]

end Eel.Builtin
