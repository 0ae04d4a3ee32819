/-
Log entries: what a program says, and on which line it says it.

An entry without text is suppressed; comments leave such entries, and a run drops
them.  Line zero means that the entry has not been stamped with a line.
-/
import Eel.Fault

namespace Eel

/-- The four kinds of log entries. -/
inductive Kind where
  | output
  | warning
  | error
  | halted
deriving DecidableEq, Repr

namespace Kind

/-- The digit that stands for a kind. -/
def code : Kind → Nat
  | output => 0
  | warning => 1
  | error => 2
  | halted => 3

/-- The kind that a digit stands for. -/
def ofCode : Int → Except Fault Kind
  | 0 => .ok output
  | 1 => .ok warning
  | 2 => .ok error
  | 3 => .ok halted
  | n => .error (.unknownKind n)

/-- The name of a kind, in capitals. -/
def name : Kind → String
  | output => "OUTPUT"
  | warning => "WARNING"
  | error => "ERROR"
  | halted => "HALTED"

/-- What is written in front of an entry that is shown as prose. -/
def label : Kind → String
  | output => ""
  | warning => "WARNING: "
  | error => "ERROR: "
  | halted => "EXECUTION HALTED: "

@[simp] theorem ofCode_code (k : Kind) : ofCode k.code = .ok k := by
  cases k <;> rfl

end Kind

/-- One entry of a log. -/
structure Entry where
  kind : Kind
  /-- What the entry says; nothing if it is suppressed. -/
  text : Option String
  line : Int := 0
deriving DecidableEq, Repr

namespace Entry

/-- The entry with a line stamped on it. -/
def stamp (e : Entry) (line : Int) : Entry := { e with line }

/-- Whether the entry has a text to show. -/
def isShown (e : Entry) : Bool := e.text.isSome

/-- Kind, line and text on one line, for other programs to read. -/
def raw (e : Entry) : String :=
  toString e.kind.code ++ "," ++ toString e.line ++ ";" ++ e.text.getD "None"

/-- The entry as prose; a suppressed entry has none. -/
def prose (e : Entry) : Except Fault String :=
  match e.text with
  | some text => .ok (e.kind.label ++ text)
  | none => .error .nothingToDescribe

/-- All fields of the entry spelled out. -/
def picture (e : Entry) : String :=
  "LogEntry(kind=<Kind." ++ e.kind.name ++ ": " ++ toString e.kind.code ++ ">, text="
    ++ (e.text.elim "None" Text.quoted) ++ ", line=" ++ toString e.line ++ ")"

end Entry

end Eel
