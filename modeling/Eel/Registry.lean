/-
Registries: the commands a program may use.

A registry only grows, one definition at a time, and refuses a name that is already
there.  A frozen registry refuses every definition.
-/
import Eel.Command

namespace Eel

/-- The known commands, in the order of their definition. -/
structure Registry where
  commands : List Command := []
  frozen : Bool := false

/-- Why a definition is refused. -/
inductive Refusal where
  | alreadyDefined (name : String)
  | registryFrozen
deriving DecidableEq, Repr

namespace Refusal

/-- The class a refusal is reported under. -/
def kind : Refusal → String
  | alreadyDefined _ => "AlreadyExists"
  | registryFrozen => "TypeError"

/-- The wording of a refusal. -/
def message : Refusal → String
  | alreadyDefined name => Text.quoted name
  | registryFrozen => "'mappingproxy' object does not support item assignment"

end Refusal

namespace Registry

/-- The command with a given name. -/
def get? (r : Registry) (name : String) : Option Command :=
  r.commands.find? (·.name == name)

theorem name_of_get? {r : Registry} {name : String} {c : Command} (h : r.get? name = some c) :
    c.name = name := by
  simpa using List.find?_some h

/-- Whether a name is known. -/
def contains (r : Registry) (name : String) : Bool := (r.get? name).isSome

/-- The number of known commands. -/
def size (r : Registry) : Nat := r.commands.length

/-- Adds a command at the end, unless its name is known or the registry is frozen. -/
def define (r : Registry) (c : Command) : Except Refusal Registry :=
  if r.contains c.name then .error (.alreadyDefined c.name)
  else if r.frozen then .error .registryFrozen
  else .ok { r with commands := r.commands ++ [c] }

/-- Defines commands one after the other, up to the first refusal. -/
def defineAll (r : Registry) (cs : List Command) : Except Refusal Registry :=
  cs.foldlM define r

/-- The same commands, closed to further definitions. -/
def freeze (r : Registry) : Registry := { r with frozen := true }

/-- The operator with a given name that stands between two operands. -/
def operator? (r : Registry) (name : String) : Option Command :=
  (r.get? name).filter (·.isDyadic)

/-- The comment marker with a given name. -/
def comment? (r : Registry) (name : String) : Option Command :=
  (r.get? name).filter (·.isComment)

/-- The plain command with a given name. -/
def plain? (r : Registry) (name : String) : Option Command :=
  (r.get? name).filter (·.isPlain)

/-- The names of the comment markers, in the order of their definition. -/
def commentMarkers (r : Registry) : List String :=
  (r.commands.filter (·.isComment)).map (·.name)

end Registry

end Eel
