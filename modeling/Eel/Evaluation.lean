/-
Evaluating one command on its words.

The words first have their references replaced, then nested calls and operators are
reduced to their values, and what is left goes to the command's handler.  A nested
evaluation starts over with the words it is given, in the same environment.  How
deeply evaluations may be nested is an argument: with `nesting` zero there is no
room for another one.
-/
import Eel.Reduction
import Eel.Substitution

namespace Eel

/-- The outcome of a command that nobody has defined. -/
def commandNotFound (name : String) : Outcome :=
  .fail ("Command \"" ++ name ++ "\" Not Found.")

/-- The words of a command with their references replaced. -/
def substituteAll (env : Environment) (slots : List Slot) : List String :=
  (Slot.live slots).map (substitute env)

/-- Evaluates the command called `name` on the words in `slots`. -/
def evaluate (r : Registry) (env : Environment) :
    (nesting : Nat) → Chance → (name : String) → (slots : List Slot) → Traced Outcome
  | 0, _, _, _ => .fail .nestingTooDeep
  | nesting + 1, chance, name, slots =>
    match r.get? name with
    | none => pure (commandNotFound name)
    | some command => do
      .note (.executing name)
      let words := substituteAll env slots
      .note (.substituted words)
      let run := fun k (c : Command) args => evaluate r env nesting (chance.child k) c.name args
      match ← Reduction.sweep r run [] (words.map .word) [] with
      | none =>
        .note (.abandoned name)
        pure {}
      | some (params, parts) =>
        .note (.dispatching name params chance)
        let own ← .ofExcept (command.handler chance params)
        pure (.compose parts own)

end Eel
