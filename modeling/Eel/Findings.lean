/-
Findings: what went wrong in a run, for the console.

Findings are issues up to a limit; those beyond it are forgotten.  A log contributes
one issue for each of its errors, pointing at the line that raised it.  They are shown one
by one, so a picture that cannot be drawn leaves those above it on the console.
-/
import Eel.Chance
import Eel.Console
import Eel.Document
import Eel.Log
import Eel.Source

namespace Eel

/-- Something that went wrong, and where. -/
structure Issue where
  intro : Option String
  places : List Stretch := []

/-- The rule above each issue. -/
def Issue.rule : String := Text.joinWith "" (List.replicate 20 "  -") ++ "\n"

/-- The issue with pictures of its places. -/
def Issue.text (drawing : Drawing) (i : Issue) : Except Fault String := do
  let pictures ← i.places.mapM (Stretch.picture drawing)
  match i.intro with
  | none => .error .nothingToPointOut
  | some intro => .ok (Text.joinWith "\n" (intro :: pictures))

/-- Shows the issue under its rule. -/
def Issue.toConsole (drawing : Drawing) (i : Issue) : Console Unit := do
  .complain Issue.rule
  let text ← .ofExcept (i.text drawing)
  .complain (text ++ "\n")

/-- The issues so far. -/
structure Findings where
  /-- How many issues are remembered. -/
  capacity : Int := 10
  issues : List Issue := []

namespace Findings

/-- Whether nothing went wrong. -/
def isEmpty (f : Findings) : Bool := f.issues.isEmpty

/-- Adds an issue while there is room. -/
def add (f : Findings) (i : Issue) : Findings :=
  if f.issues.length < f.capacity then { f with issues := f.issues ++ [i] } else f

/-- Forgets all issues. -/
def clear (f : Findings) : Findings := { f with issues := [] }

/-- The stretch of a document that a line takes up. -/
def stretchOf (d : Document) (line : Line) : Stretch where
  document := d
  start := line.offset
  width := line.text.length

/-- The issue that an error entry raises. -/
def issueOf (d : Document) (lines : List Line) (e : Entry) : Issue :=
  let place := lines.find? fun l => (l.number : Int) = e.line
  ⟨e.text, (place.map (stretchOf d)).toList⟩

/-- Adds an issue for each error of a log. -/
def addErrors (f : Findings) (d : Document) (lines : List Line) (log : List Entry) : Findings :=
  ((log.filter (·.kind = .error)).map (issueOf d lines)).foldl add f

/-- The rule above the first issue. -/
def banner : String := String.ofList (List.replicate 60 '*') ++ "\n"

/-- Shows all issues, under an exclamation if there are any. -/
def toConsole (drawing : Drawing) (exclamation : String) (f : Findings) : Console Unit := do
  unless f.isEmpty do
    .complain (banner ++ exclamation ++ "\n")
  f.issues.forM (Issue.toConsole drawing)

end Findings

/-- A short exclamation, put together by chance. -/
def exclamation (c : Chance) : String :=
  (c.child 0).pick "Oh, " ["Well, ", "Aw, ", "", ""]
    ++ (c.child 1).pick "Ack" ["ARGH", "Blargh", "Confound it", "Crud", "Curses", "Drat",
      "Fiddlesticks", "Good Grief", "Great Scott", "Heavens", "Nuts", "Rats"]
    ++ "! "
    ++ (c.child 2).pick "The program stops here." ["That line did not go as planned.",
      "Nothing after this gets run.", "Have a look at the line below."]

end Eel
