/-
Commands: a name, a handler, and how the name may appear among words.

A plain command is called by its name behind a dash and takes as many of the words
behind it as its arity says.  An operator stands bare between its two operands.  A
comment marker stands bare too, and what follows it is a comment.
-/
import Eel.Chance
import Eel.Fault
import Eel.Outcome

namespace Eel

/-- What a command does with its parameters, given a source of chance. -/
abbrev Handler := Chance → List String → Except Fault Outcome

/-- A command as it is kept in a registry. -/
structure Command where
  name : String
  /-- How many words a call takes; all of them if there is no arity. -/
  arity : Option Int := none
  isOperator : Bool := false
  isComment : Bool := false
  handler : Handler

namespace Command

/-- Whether the command is called by its name behind a dash. -/
def isPlain (c : Command) : Bool := !(c.isOperator || c.isComment)

/-- Whether the command stands between two operands. -/
def isDyadic (c : Command) : Bool := c.isOperator && !c.isComment

/--
What a call at position `i` does with the words behind it: the arguments it gets, and
the words that stay.

A negative arity is counted back from the call; the call then uses nothing up, and if
the count runs over the front of the list it goes on from the end.
-/
def portion {α : Type} (c : Command) (i : Nat) (words : List α) : List α × List α :=
  match c.arity with
  | none => (words, [])
  | some (.ofNat n) => (words.take n, words.drop n)
  | some (.negSucc n) =>
    if n < i + 1 then ([], words) else (words.take (i + words.length - n), words)

end Command

end Eel
