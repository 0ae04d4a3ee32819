/-
What can go wrong inside a command.

A fault is not a result: it ends the evaluation of its line.  Each constructor is a
cause; `Fault.kind` and `Fault.message` hold the wording under which the cause is
shown to the user.  The built-in commands have causes of their own; a command that is
added to them may fail for any other one.
-/
import Eel.Text.Quoted

namespace Eel

/-- The cause of a failed evaluation. -/
inductive Fault where
  /-- The text, without the blanks around it, spells no number. -/
  | notNumeric (text : String)
  /-- An infix operator got fewer than two operands. -/
  | operandsMissing (given : Nat)
  /-- A command looked for a parameter that is not there. -/
  | parameterMissing
  /-- A function of exactly two numbers got fewer. -/
  | pairExpected (function : String) (given : Nat)
  /-- A choice among numbers got none. -/
  | choiceExpected (function : String)
  /-- A choice among numbers got a single one. -/
  | choiceOfOne
  /-- A function of a number called `x` got none. -/
  | argumentMissing (function : String)
  /-- A function of exactly one number got none. -/
  | singleExpected (function : String)
  /-- The logarithm got no number. -/
  | logarithmOfNothing
  /-- A function is not defined at its argument. -/
  | outOfDomain
  /-- A finite argument has a result beyond the largest number. -/
  | outOfRange
  /-- Infinity has no whole part. -/
  | infiniteWhole
  /-- NaN has no whole part. -/
  | undefinedWhole
  /-- A quotient by zero. -/
  | divisionByZero
  /-- Evaluations are nested deeper than allowed. -/
  | nestingTooDeep
  /-- No kind of log entry has this code. -/
  | unknownKind (code : Int)
  /-- A suppressed log entry was to be shown as prose. -/
  | nothingToDescribe
  /-- A suppressed log entry was to be pointed out as an issue. -/
  | nothingToPointOut
  /-- Whatever else a command or the host complains about, in its own words. -/
  | other (kind message : String)
deriving DecidableEq, Repr

namespace Fault

/-- The class a fault is reported under. -/
def kind : Fault → String
  | notNumeric _ | operandsMissing _ | outOfDomain | undefinedWhole | unknownKind _ => "ValueError"
  | parameterMissing => "IndexError"
  | pairExpected _ _ | choiceExpected _ | choiceOfOne | argumentMissing _ | singleExpected _
  | logarithmOfNothing | nothingToDescribe | nothingToPointOut => "TypeError"
  | outOfRange | infiniteWhole => "OverflowError"
  | divisionByZero => "ZeroDivisionError"
  | nestingTooDeep => "RecursionError"
  | other kind _ => kind

/-- The wording of a fault. -/
def message : Fault → String
  | notNumeric text => "could not convert string to float: " ++ Text.quoted text
  | operandsMissing given =>
    "not enough values to unpack (expected 2, got " ++ toString given ++ ")"
  | parameterMissing => "list index out of range"
  | pairExpected function given => function ++ " expected 2 arguments, got " ++ toString given
  | choiceExpected function => function ++ " expected at least 1 argument, got 0"
  | choiceOfOne => "'float' object is not iterable"
  | argumentMissing function => function ++ "() missing 1 required positional argument: 'x'"
  | singleExpected function => function ++ "() takes exactly one argument (0 given)"
  | logarithmOfNothing => "math.log requires 1 to 2 arguments"
  | outOfDomain => "math domain error"
  | outOfRange => "math range error"
  | infiniteWhole => "cannot convert float infinity to integer"
  | undefinedWhole => "cannot convert float NaN to integer"
  | divisionByZero => "float division by zero"
  | nestingTooDeep => "maximum recursion depth exceeded"
  | unknownKind code => toString code ++ " is not a valid Kind"
  | nothingToDescribe => "can only concatenate str (not \"NoneType\") to str"
  | nothingToPointOut => "sequence item 0: expected str instance, NoneType found"
  | other _ message => message

/-- A fault on one line, as it stands in a log. -/
def report (f : Fault) : String := f.kind ++ ": " ++ f.message

end Fault

end Eel
