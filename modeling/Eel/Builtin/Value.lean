/-
Values of built-in commands.

Text is the only type of value.  Commands that compute with numbers or truth values
read them from text and write them back as text.
-/
import Eel.Command
import Eel.Number.Layout
import Eel.Number.Numeral

namespace Eel.Builtin

/-- The number that a parameter spells. -/
def numberOf (s : String) : Except Fault Float :=
  match Number.parse? s with
  | some x => .ok x
  | none => .error (.notNumeric (String.ofList (Text.trim s.toList)))

/-- A truth value as text. -/
def truthText (b : Bool) : String := if b then "true" else "false"

/-- Whether a text counts as true: all do but the empty one and `false`. -/
def isTrue (s : String) : Bool := !(s == "" || s == "false")

/-- A handler that takes its value from its first parameter. -/
def ofOne (f : String → Except Fault String) : Handler := fun _ params =>
  match params with
  | a :: _ => (f a).map .ofValue
  | [] => .error .parameterMissing

/-- A handler that takes its value from its first two parameters. -/
def ofTwo (f : String → String → Except Fault String) : Handler := fun _ params =>
  match params with
  | a :: b :: _ => (f a b).map .ofValue
  | _ => .error .parameterMissing

end Eel.Builtin
