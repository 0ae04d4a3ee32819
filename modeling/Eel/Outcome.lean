/-
Outcomes of evaluations.

Every handler returns one, and so does every evaluation that runs handlers inside:
`compose` puts the outcomes of the parts in front of the outcome of the whole.
Entries keep the order in which they arose, a later write of a name wins over an
earlier one, and a halt asked for anywhere is a halt of the whole.  The value is
that of the whole alone.
-/
import Eel.Bindings
import Eel.Log

namespace Eel

/-- What an evaluation hands back. -/
structure Outcome where
  /-- The text that stands for the evaluation where it was nested. -/
  value : String := "true"
  log : List Entry := []
  /-- The variables to be bound once the line is done. -/
  writes : Bindings := ∅
  /-- Whether the run is to stop after this line. -/
  halt : Bool := false
deriving DecidableEq, Repr

namespace Outcome

/-- An outcome that is nothing but a value. -/
def ofValue (value : String) : Outcome := { value }

/-- An outcome that says one thing. -/
def say (kind : Kind) (text : String) (halt : Bool) : Outcome :=
  { log := [⟨kind, some text, 0⟩], halt }

/-- An error that stops the run. -/
def fail (text : String) : Outcome := say .error text true

/-- Log, writes and halt of `first`, then those of `second`; the value of `second`. -/
def append (first second : Outcome) : Outcome where
  value := second.value
  log := first.log ++ second.log
  writes := first.writes.merge second.writes
  halt := first.halt || second.halt

/-- The outcome of a computation with parts: everything the parts did, and then its own. -/
def compose (parts : List Outcome) (own : Outcome) : Outcome :=
  (parts ++ [own]).foldl append {}

/-! ### Compositions field by field -/

theorem foldl_append_log (parts : List Outcome) (first : Outcome) :
    (parts.foldl append first).log = first.log ++ parts.flatMap log := by
  induction parts generalizing first with
  | nil => simp
  | cons p parts ih => simp [ih, append]

theorem foldl_append_halt (parts : List Outcome) (first : Outcome) :
    (parts.foldl append first).halt = (first.halt || parts.any halt) := by
  induction parts generalizing first with
  | nil => simp
  | cons p parts ih => simp [ih, append, Bool.or_assoc]

@[simp] theorem value_compose (parts : List Outcome) (own : Outcome) :
    (compose parts own).value = own.value := by
  simp [compose, append]

/-- A halt anywhere is a halt of the whole. -/
theorem halt_compose (parts : List Outcome) (own : Outcome) :
    (compose parts own).halt = (parts.any halt || own.halt) := by
  rw [compose, foldl_append_halt]
  simp

/-- The outcome spelled out. -/
def picture (o : Outcome) : String :=
  let entries := o.log.map Entry.picture
  let log :=
    match entries with
    | [e] => "(" ++ e ++ ",)"
    | es => "(" ++ Text.joinWith ", " es ++ ")"
  "<CommandResult " ++ Text.quoted o.value ++ " log=" ++ log ++ " writes=" ++ o.writes.picture
    ++ " halt=" ++ (if o.halt then "True" else "False") ++ ">"

end Outcome

end Eel
