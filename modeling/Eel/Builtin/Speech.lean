/-
Commands that write to the log, bind variables or stop the run.
-/
import Eel.Command
import Eel.Environment

namespace Eel.Builtin

/-- A command that logs its parameters. -/
def logging (name : String) (kind : Kind) (halt : Bool) : Command where
  name
  handler _ params := .ok (.say kind (Text.joinWith " " params) halt)

/-- Binds the name given first to the other parameters. -/
def setVariable : Handler := fun _ params =>
  let name := params.headD ""
  if Environment.isName name then
    let value := Text.joinWith " " params.tail
    .ok { value, writes := .singleton name value }
  else .ok (.fail ("Invalid variable name \"" ++ name ++ "\"."))

/-- The commands of this module. -/
def speech : List Command := [
  logging "print" .output false,
  logging "warn" .warning false,
  logging "error" .error true,
  logging "stop" .halted true,
  { name := "set", handler := setVariable }]

end Eel.Builtin
