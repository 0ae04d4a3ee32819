/-
All built-in commands.
-/
import Eel.Builtin.Numeric
import Eel.Builtin.Operator
import Eel.Builtin.Speech
import Eel.Builtin.Textual
import Eel.Registry

namespace Eel.Builtin

/-- The built-in commands, in the order of their definition. -/
def commands : List Command := speech ++ numeric ++ textual ++ operators ++ markers

/-- The registry of the built-in commands, closed to further definitions. -/
def registry : Registry := ⟨commands, true⟩

end Eel.Builtin
