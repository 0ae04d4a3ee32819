/-
Running a program: one line after the other, with one set of variables.

What a line binds becomes visible to the next line and never before.  A line that
asks for a halt is the last one, and so is a line with a fault, which leaves a single
error entry and binds nothing.
-/
import Eel.Builtin.Catalogue
import Eel.Evaluation
import Eel.Source

namespace Eel

/-- What a program runs on. -/
structure Interpreter where
  registry : Registry := Builtin.registry
  /-- How many evaluations may be open at once; the host sets the limit. -/
  nesting : Nat

/-- What is carried from one line to the next. -/
structure State where
  env : Environment
  chance : Chance

/-- What running some lines has come to. -/
structure Progress where
  entries : List Entry
  events : List Event
  state : State
  /-- Whether no further line is to be run. -/
  stopped : Bool

namespace Interpreter

/-- Evaluates a command on words in a given state; what it binds is only reported. -/
def evaluate (i : Interpreter) (s : State) (name : String) (slots : List Slot) : Traced Outcome :=
  Eel.evaluate i.registry s.env i.nesting s.chance name slots

/-- Runs one line. -/
def runLine (i : Interpreter) (s : State) (line : Line) : Progress :=
  let (name, words) := Line.cut line.text
  let traced := i.evaluate s name (words.map .word)
  match traced.result with
  | .error fault =>
    { entries := [⟨.error, some fault.report, line.number⟩]
      events := traced.events
      state := { s with chance := s.chance.next }
      stopped := true }
  | .ok outcome =>
    { entries := (outcome.log.filter Entry.isShown).map (·.stamp line.number)
      events := traced.events
      state := ⟨s.env.merge outcome.writes, s.chance.next⟩
      stopped := outcome.halt }

/-- Runs lines up to the first one that stops. -/
def runKept (i : Interpreter) (s : State) : List Line → Progress
  | [] => ⟨[], [], s, false⟩
  | line :: lines =>
    let first := i.runLine s line
    if first.stopped then first
    else
      let later := i.runKept first.state lines
      { entries := first.entries ++ later.entries
        events := first.events ++ later.events
        state := later.state
        stopped := later.stopped }

/-- The entry that stands for an empty log. -/
def nothingSaid : Entry := ⟨.output, some "no output", 0⟩

/-- The log of a run: its entries, or a single one that says there are none. -/
def logOf (entries : List Entry) : List Entry :=
  if entries.isEmpty then [nothingSaid] else entries

/-- Runs a program given as lines. -/
def runLines (i : Interpreter) (s : State) (lines : List String) : Progress :=
  let p := i.runKept s (Line.kept i.registry.commentMarkers lines)
  { p with entries := logOf p.entries }

/-- Runs source code of any form. -/
def run (i : Interpreter) (s : State) (source : Source) : Except SourceError Progress :=
  source.lines.map (i.runLines s)

/-- Runs source code that has to be a list of lines. -/
def runList (i : Interpreter) (s : State) (source : Source) : Except SourceError Progress :=
  source.listLines.map (i.runLines s)

end Interpreter

end Eel
