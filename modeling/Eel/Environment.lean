/-
The variables of a run.

There is no scope: one flat set of bindings serves a whole run.  Three names are
bound from the start and may be bound again like any other.
-/
import Eel.Bindings

namespace Eel

/-- The variables visible to a line. -/
abbrev Environment := Bindings

namespace Environment

/-- The bindings every run starts with unless it is told otherwise. -/
def initial : Environment :=
  Bindings.ofList [("VERSION", "1.2.0"), ("LANG", "python"), ("UNBOUNDED", toString (Nat.pow 2 52))]

/-- The characters of a variable's name, as it may be declared. -/
def isNameChar (c : Char) : Bool := c.isAlphanum || c == '_' || c == '-'

/-- Whether a text may be declared as a name: ASCII letters and digits, `_` and `-`, at least one. -/
def isName (s : String) : Bool := !s.toList.isEmpty && s.toList.all isNameChar

/-- The environment spelled out. -/
def picture (env : Environment) : String := "<Environment " ++ Bindings.picture env ++ ">"

end Environment

end Eel
