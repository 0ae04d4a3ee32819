/-
Source code and the lines that are worth running.

Source code is a text, cut at line feeds, or a list of items, one line each.  Blank
lines and comment lines are dropped.  A kept line remembers its number and where in
the joined source its first character stands.
-/
import Eel.Number.Layout
import Eel.Text.Blank
import Eel.Text.Pieces

namespace Eel

/-- One item of a list of source lines. -/
inductive Item where
  /-- A missing line, taken as empty. -/
  | missing
  | truth (b : Bool)
  | integer (n : Int)
  | decimal (x : Float)
  | text (s : String)

namespace Item

/-- The line that an item stands for. -/
def line : Item → String
  | missing => ""
  | truth b => if b then "True" else "False"
  | integer n => toString n
  | decimal x => Number.itemText x
  | text s => s

/-- The name of an item's type, for complaints. -/
def typeName : Item → String
  | missing => "NoneType"
  | truth _ => "bool"
  | integer _ => "int"
  | decimal _ => "float"
  | text _ => "str"

end Item

/-- What may be handed over as source code. -/
inductive Source where
  /-- A list of lines. -/
  | list (items : List Item)
  /-- A single item; only a text is source code. -/
  | single (item : Item)
  /-- A mapping, which is no source code. -/
  | mapping

/-- Why something handed over is no source code. -/
inductive SourceError where
  | notSource (typeName : String)
  | notLines (typeName : String)
deriving DecidableEq, Repr

/-- The wording of the complaint. -/
def SourceError.message : SourceError → String
  | notSource t => "expected a string or a list of lines, got " ++ t
  | notLines t => "expected a list of lines, got " ++ t

namespace Source

/-- The lines of a text. -/
def linesOfText (s : String) : List String := Text.split '\n' s

/-- The name of the source's type, for complaints. -/
def typeName : Source → String
  | list _ => "list"
  | single item => item.typeName
  | mapping => "dict"

/-- The lines of source code. -/
def lines : Source → Except SourceError (List String)
  | list items => .ok (items.map Item.line)
  | single (.text s) => .ok (linesOfText s)
  | s => .error (.notSource s.typeName)

/-- The lines of source code that has to be a list already. -/
def listLines : Source → Except SourceError (List String)
  | list items => .ok (items.map Item.line)
  | s => .error (.notLines s.typeName)

end Source

/-- A line worth running. -/
structure Line where
  /-- Counted from one, over all lines. -/
  number : Nat
  /-- Where the text starts in the lines joined by line feeds. -/
  offset : Nat
  /-- The line without the blanks around it. -/
  text : String
deriving DecidableEq, Repr

namespace Line

/-- Whether a trimmed line is neither empty nor a comment. -/
def isKept (markers : List String) (trimmed : List Char) : Bool :=
  !trimmed.isEmpty && !markers.any fun m => m.toList.isPrefixOf trimmed

/-- The kept lines, when the first line has a given number and offset. -/
def keptFrom (markers : List String) (number offset : Nat) : List String → List Line
  | [] => []
  | line :: lines =>
    let cs := line.toList
    let trimmed := Text.trim cs
    let later := keptFrom markers (number + 1) (offset + cs.length + 1) lines
    if isKept markers trimmed then
      ⟨number, offset + (cs.length - (Text.trimLeft cs).length), String.ofList trimmed⟩ :: later
    else later

/-- The lines worth running: those with something on them that does not start with a marker. -/
def kept (markers : List String) (lines : List String) : List Line := keptFrom markers 1 0 lines

/-- A text cut into a command name and words, at every single space. -/
def cut (text : String) : String × List String :=
  match Text.split ' ' text with
  | [] => ("", [])
  | name :: words => (name, words)

end Line

end Eel
