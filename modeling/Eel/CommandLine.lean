/-
The command line: runs a program file and shows what it had to say.

Output goes to the first stream.  Warnings, errors, halts, the trace and the pictures of
what went wrong go to the second.  The exit status tells whether anything went wrong.
What the host does on the way, reading a file or drawing a picture, may fail.
-/
import Eel.Arguments
import Eel.Console
import Eel.Findings
import Eel.Location
import Eel.Program
import Eel.Utf8

namespace Eel.CommandLine

/-- What the program relies on its host for. -/
structure Host where
  /-- How many evaluations may be open at once. -/
  nesting : Nat
  drawing : Drawing

/-- How to call the program. -/
def usage : String := "usage: eel [-h] [-r] [-v] program\n"

/-- The explanation of all arguments. -/
def help : String :=
  usage ++ "\nInterpreter for the Easily Extendable Language.\n\n"
    ++ "positional arguments:\n"
    ++ "  program        try examples/tour.eel for example.\n\n"
    ++ "options:\n"
    ++ "  -h, --help     show this help message and exit\n"
    ++ "  -r, --raw      Show log entries as kind,line;text instead of prose.\n"
    ++ "  -v, --verbose  Trace the evaluator on stderr.\n"

/-- What is said when there are no arguments. -/
def introduction : String :=
  "This runs programs in the Easily Extendable Language.\n\n" ++ usage
    ++ "\n\nFor example:\n\n    eel program.eel\n\n"
    ++ "will run program.eel and show what it printed, warned, or complained about.\n\n"
    ++ "    eel -h\n\nwill explain all the arguments.\n\n"
    ++ "Mostly the language is meant to be embedded: see eelang.executive.run\n"

/-- The program to run and how to show its log. -/
structure Options where
  raw : Bool
  verbose : Nat

/-- Shows a log entry on a line of its own. -/
def showEntry (raw : Bool) (e : Entry) : Console Unit := do
  let line ← .ofExcept (if raw then .ok e.raw else e.prose)
  if e.kind = .output then .print (line ++ "\n") else .complain (line ++ "\n")

/-- Shows the entries of a log one after the other. -/
def showEntries (raw : Bool) (log : List Entry) : Console Unit := log.forM (showEntry raw)

/-- Adds what went wrong in a run of a document that left `log`. -/
def addErrors (f : Findings) (d : Document) (log : List Entry) : Findings :=
  let lines := Source.linesOfText (String.ofList d.content)
  f.addErrors d (Line.kept Builtin.registry.commentMarkers lines) log

/-- Points out what went wrong in a run of a document; what comes out is the exit status. -/
def report (host : Host) (exclamation : String) (d : Document) (log : List Entry) :
    Console Nat := do
  .ofExcept (host.drawing.accept d)
  let findings := addErrors {} d log
  if findings.isEmpty then
    return 0
  findings.toConsole host.drawing exclamation
  return 1

/-- Runs a program text, shows its log and points out what went wrong. -/
def runText (host : Host) (options : Options) (chance : Chance) (exclamation : String)
    (d : Document) : Console Nat := do
  let interpreter : Interpreter := { nesting := host.nesting }
  let run := interpreter.runLines ⟨.initial, chance⟩ (Source.linesOfText (String.ofList d.content))
  .complain (traceText options.verbose run.events)
  showEntries options.raw run.entries
  report host exclamation d run.entries

/-- Runs the program whose bytes were read, or says why they could not be. -/
def runFile (host : Host) (options : Options) (chance : Chance) (exclamation : String)
    (location : Location) (bytes : Except ReadError (List UInt8)) : Console Nat :=
  match bytes with
  | .error reason => do
    .complain ("Could not read " ++ location.text ++ ": " ++ reason.message ++ "\n")
    return 1
  | .ok bytes =>
    match Utf8.decode bytes with
    | .error e => .ofExcept (.error (.other "UnicodeDecodeError" e.message))
    | .ok text =>
      runText host options chance exclamation
        { content := Utf8.unifyLineEnds text, name := location.text }

/-- Serves a list of arguments, reading the program through `read`.  What comes out is the exit
status, if the process is to end with one. -/
def serve (host : Host) (workingDirectory : String)
    (read : Location → Except ReadError (List UInt8)) (chance : Chance) (exclamation : String)
    (args : List String) : Console (Option Nat) := do
  match Arguments.request args with
  | .introduce =>
    .print introduction
    return none
  | .explain =>
    .print help
    return some 0
  | .reject message =>
    .complain (usage ++ "eel: error: " ++ message ++ "\n")
    return some 2
  | .run program raw verbose =>
    if program.toList.contains '\x00' then
      .ofExcept (.error (.other "ValueError" "embedded null byte"))
    else
      let location := Location.ofPath workingDirectory program
      some <$> runFile host ⟨raw, verbose⟩ chance exclamation location (read location)

end Eel.CommandLine
