/-
The command `eel`: serves the arguments of a process, with a host and a source of chance.
-/
import Eel.CommandLine

namespace Eel

/-- The system's number for a directory in place of a file; it may come negated. -/
def directoryCode : UInt32 := 21

/-- Why the system could not read a file. -/
def readErrorOf : IO.Error → ReadError
  | .noFileOrDirectory .. => .noSuchFile
  | .inappropriateType _ code _ =>
    if code = directoryCode || code = 0 - directoryCode then .isDirectory else .notDirectory
  | e => .other (toString e)

/-- The bytes of a file, or why they cannot be read. -/
def readFile (path : String) : IO (Except ReadError (List UInt8)) := do
  try
    return .ok (← IO.FS.readBinFile path).toList
  catch e =>
    return .error (readErrorOf e)

/-- Runs the program that the arguments name; the exit status tells how it went. -/
def runProcess (host : CommandLine.Host) (chance : Chance) (args : List String) : IO UInt32 := do
  let directory := toString (← IO.currentDir)
  let bytes ←
    match Arguments.request args with
    | .run program _ _ => readFile (Location.ofPath directory program).text
    | _ => pure (.error .noSuchFile)
  let shown := CommandLine.serve host directory (fun _ => bytes) (chance.child 0)
    (exclamation (chance.child 1)) args
  IO.print shown.output
  IO.eprint shown.errors
  match shown.result with
  | .error fault =>
    IO.eprintln fault.report
    return 1
  | .ok status => return UInt32.ofNat (status.getD 0)

end Eel
