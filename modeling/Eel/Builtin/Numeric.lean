/-
Commands that compute with numbers.

A command reads as many parameters as it has use for and complains about the first
one that is no number; only then does it count them.
-/
import Eel.Builtin.Value
import Eel.Number.Arithmetic

namespace Eel.Builtin

/-- The outcome of a computed number. -/
def numberOutcome (x : Float) : Outcome := .ofValue (Number.text x)

/-- A command on one number; `shortage` is its complaint about none. -/
def ofNumber (name : String) (shortage : Fault) (f : Float → Except Fault Float) : Command where
  name
  arity := some 1
  handler _ params := do
    match ← (params.take 1).mapM numberOf with
    | x :: _ => return numberOutcome (← f x)
    | [] => .error shortage

/-- A command on two numbers; `shortage` is its complaint about fewer. -/
def ofNumbers (name : String) (shortage : Nat → Fault) (f : Float → Float → Except Fault Float) :
    Command where
  name
  arity := some 2
  handler _ params := do
    match ← (params.take 2).mapM numberOf with
    | x :: y :: _ => return numberOutcome (← f x y)
    | xs => .error (shortage xs.length)

/-- The complaint of a choice among too few numbers. -/
def choiceShortage (name : String) (given : Nat) : Fault :=
  if given = 0 then .choiceExpected name else .choiceOfOne

/-- A command for an elementary function. -/
def elementary (name : String) (grows : Bool) (f : Float → Float) : Command :=
  ofNumber name (.singleExpected ("math." ++ name)) (Number.checked grows f)

/-- The commands of this module. -/
def numeric : List Command := [
  ofNumbers "add" (.pairExpected "add") fun x y => .ok (x + y),
  ofNumbers "sub" (.pairExpected "sub") fun x y => .ok (x - y),
  ofNumbers "mul" (.pairExpected "mul") fun x y => .ok (x * y),
  ofNumbers "div" (.pairExpected "truediv") Number.divide,
  ofNumbers "pow" (.pairExpected "pow") Number.power,
  ofNumbers "mod" (.pairExpected "fmod") Number.remainder,
  ofNumbers "min" (choiceShortage "min") fun x y => .ok (Number.lesser x y),
  ofNumbers "max" (choiceShortage "max") fun x y => .ok (Number.greater x y),
  elementary "sqrt" false Float.sqrt,
  ofNumber "cbrt" (.argumentMissing "_cbrt") fun x => .ok (Number.cubeRoot x),
  ofNumber "abs" (.singleExpected "abs") fun x => .ok x.abs,
  ofNumber "ceil" (.singleExpected "math.ceil") Number.ceil,
  ofNumber "floor" (.singleExpected "math.floor") Number.floor,
  ofNumber "round" (.argumentMissing "_round") Number.round,
  elementary "cos" false Float.cos,
  elementary "cosh" true Float.cosh,
  elementary "acos" false Float.acos,
  elementary "acosh" false Float.acosh,
  elementary "sin" false Float.sin,
  elementary "sinh" true Float.sinh,
  elementary "asin" false Float.asin,
  elementary "asinh" false Float.asinh,
  elementary "tan" false Float.tan,
  elementary "tanh" false Float.tanh,
  elementary "atan" false Float.atan,
  ofNumbers "atan2" (.pairExpected "atan2") fun y x => .ok (Float.atan2 y x),
  elementary "atanh" false Float.atanh,
  ofNumber "log" .logarithmOfNothing (Number.checked false Float.log),
  elementary "log10" false Float.log10,
  elementary "log2" false Float.log2]

end Eel.Builtin
