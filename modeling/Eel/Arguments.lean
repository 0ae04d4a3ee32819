/-
The arguments of the command line.

There is one program to run and there are three switches, each with a short and a long
spelling.  Short switches may share one dash, long ones may be shortened as long as they
stay unique, and everything behind `--` is taken literally.  No switch takes a value: what
stands behind a long one and its `=` is refused, and so are the letters behind a short one
from the first that is no switch on.  A text with a dash in front is no switch if it looks
like a number or holds a space.
-/
import Eel.Text.Digit
import Eel.Text.Quoted

namespace Eel.Arguments

/-- The switches. -/
inductive Switch where
  | help
  | raw
  | verbose
deriving DecidableEq, Repr

/-- The letter of a switch. -/
def Switch.letter : Switch → Char
  | help => 'h'
  | raw => 'r'
  | verbose => 'v'

/-- The word of a switch. -/
def Switch.word : Switch → String
  | help => "help"
  | raw => "raw"
  | verbose => "verbose"

/-- Both spellings of a switch. -/
def Switch.title (s : Switch) : String :=
  String.ofList ['-', s.letter] ++ "/--" ++ s.word

/-- All switches. -/
def Switch.all : List Switch := [help, raw, verbose]

/-- What the command line is asked to do. -/
inductive Request where
  /-- Nothing: say what this is. -/
  | introduce
  | explain
  | reject (message : String)
  | run (program : String) (raw : Bool) (verbose : Nat)
deriving DecidableEq, Repr

/-- One argument, classified. -/
inductive Argument where
  /-- The program, or too much. -/
  | word (s : String)
  /-- The mark that ends the switches. -/
  | divider
  /-- The switches that share one argument, first one first. -/
  | switches (ss : List Switch)
  /-- A switch with a value, which none takes. -/
  | valued (s : Switch) (value : List Char)
  /-- A switch that does not exist. -/
  | unknown (s : String)

/-- A text cut at its first `=`. -/
def cutAtEquals (cs : List Char) : List Char × Option (List Char) :=
  match cs.dropWhile (· != '=') with
  | [] => (cs, none)
  | _ :: value => (cs.takeWhile (· != '='), some value)

/-- Whether a text looks like a negative number: digits, or a point with digits behind it. -/
def looksNegative : List Char → Bool
  | '-' :: cs =>
    let cs := if cs.getLast? = some '\n' then cs.dropLast else cs
    let whole := cs.takeWhile Text.isDigit
    match cs.dropWhile Text.isDigit with
    | [] => !whole.isEmpty
    | '.' :: fraction => !fraction.isEmpty && fraction.all Text.isDigit
    | _ => false
  | _ => false

/-- A text with a dash in front that is no switch. -/
def noSwitch (s : String) : Argument :=
  if looksNegative s.toList || s.toList.contains ' ' then .word s else .unknown s

/-- A switch in its long spelling, with what stands behind its `=` if there is one. -/
def spelledOut (s : Switch) : Option (List Char) → Argument
  | none => .switches [s]
  | some value => .valued s value

/-- An argument with two dashes in front, `name` behind them. -/
def classifyLong (s : String) (name : List Char) : Except String Argument :=
  let (stem, value) := cutAtEquals name
  match Switch.all.find? fun w => w.word.toList == stem with
  | some w => .ok (spelledOut w value)
  | none =>
    match Switch.all.filter fun w => stem.isPrefixOf w.word.toList with
    | [] => .ok (noSwitch s)
    | [w] => .ok (spelledOut w value)
    | ws =>
      .error ("ambiguous option: " ++ s ++ " could match "
        ++ Text.joinWith ", " (ws.map fun w => "--" ++ w.word))

/-- The switch with a given letter. -/
def Switch.ofLetter? (c : Char) : Option Switch := Switch.all.find? fun w => w.letter == c

/--
The switches that share one dash: those before, `s`, and those whose letters follow it.

From the first letter that belongs to no switch on, the text is taken for a value of the
switch in front of it.
-/
def share (before : List Switch) (s : Switch) : List Char → Argument
  | [] => .switches (before ++ [s])
  | c :: cs =>
    match Switch.ofLetter? c with
    | none => .valued s (c :: cs)
    | some w => share (before ++ [s]) w cs

/--
An argument with one dash in front and `letter` behind it.

An `=` right behind the first letter is passed over, but something has to follow it.
-/
def classifyShort (s : String) (letter : Char) (rest : List Char) : Argument :=
  match Switch.ofLetter? letter, rest with
  | none, _ => noSwitch s
  | some w, ['='] => .valued w []
  | some w, '=' :: letters => share [] w letters
  | some w, letters => share [] w letters

/-- What an argument is. -/
def classify (s : String) : Except String Argument :=
  match s.toList with
  | ['-', '-'] => .ok .divider
  | '-' :: '-' :: name => classifyLong s name
  | '-' :: letter :: rest => .ok (classifyShort s letter rest)
  | _ => .ok (.word s)

/-- What the arguments are; behind the divider all are words. -/
def classifyAll : List String → Except String (List Argument)
  | [] => .ok []
  | s :: rest => do
    match ← classify s with
    | .divider => return .divider :: rest.map .word
    | a => return a :: (← classifyAll rest)

/-- The complaint about a value attached to a switch that takes none. -/
def valueIgnored (s : Switch) (value : List Char) : String :=
  "argument " ++ s.title ++ ": ignored explicit argument " ++ Text.quoted (String.ofList value)

/-- What has been understood so far. -/
structure Reading where
  program : Option String := none
  raw : Bool := false
  verbose : Nat := 0
  /-- Arguments that nobody wants. -/
  extras : List String := []

namespace Reading

/-- Takes the switches of one argument; the request for help is final. -/
def turn (r : Reading) : List Switch → Option Reading
  | [] => some r
  | .help :: _ => none
  | .raw :: ws => turn { r with raw := true } ws
  | .verbose :: ws => turn { r with verbose := r.verbose + 1 } ws

/-- The request, once all arguments have been read. -/
def finish (r : Reading) : Request :=
  match r.program with
  | none => .reject "the following arguments are required: program"
  | some program =>
    if r.extras.isEmpty then .run program r.raw r.verbose
    else .reject ("unrecognized arguments: " ++ Text.joinWith " " r.extras)

/--
Reads classified arguments.

The first word is the program, and a divider next to it belongs to it.
-/
def read (r : Reading) : List Argument → Request
  | [] => r.finish
  | .divider :: .word s :: rest =>
    match r.program with
    | none => read { r with program := some s } rest
    | some _ => read { r with extras := r.extras ++ ["--", s] } rest
  | .divider :: rest => read { r with extras := r.extras ++ ["--"] } rest
  | .word s :: .divider :: rest =>
    match r.program with
    | none => read { r with program := some s } rest
    | some _ => read { r with extras := r.extras ++ [s, "--"] } rest
  | .word s :: rest =>
    match r.program with
    | none => read { r with program := some s } rest
    | some _ => read { r with extras := r.extras ++ [s] } rest
  | .unknown s :: rest => read { r with extras := r.extras ++ [s] } rest
  | .valued s value :: _ => .reject (valueIgnored s value)
  | .switches ss :: rest =>
    match r.turn ss with
    | none => .explain
    | some r => read r rest

end Reading

/-- What a list of arguments asks for. -/
def request : List String → Request
  | [] => .introduce
  | args =>
    match classifyAll args with
    | .error message => .reject message
    | .ok as => Reading.read {} as

end Eel.Arguments
