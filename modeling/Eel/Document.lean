/-
Pointing at a place in a text.

How a text is broken into rows and how one of them is drawn with marks under it is left
to the host.  A `Drawing` is all that is asked of it, and any of its answers may be a
fault.  The picture of a stretch is the row that the stretch starts in, drawn with the
number of the row in front and with marks for as many columns as the stretch is wide.
-/
import Eel.Fault

namespace Eel

/-- A text that can be pointed into, and the name it goes by. -/
structure Document where
  content : List Char
  name : String := ""

/-- How a host draws. -/
structure Drawing where
  /-- Takes a document in, before anything else is asked about it. -/
  accept : Document → Except Fault Unit
  /-- The row and the column of a position. -/
  find : Document → Nat → Except Fault (Int × Int)
  /-- The text of a row. -/
  rowText : Document → Int → Except Fault String
  /-- A row with a label in front of it, marks from a column on, and a caption behind them. -/
  illustrate (row : String) (column : Int) (width : Nat) (label caption : String) :
    Except Fault String

/-- A stretch of a document. -/
structure Stretch where
  document : Document
  start : Nat
  width : Nat
  caption : String := ""

namespace Stretch

/-- The text of the stretch. -/
def slice (s : Stretch) : List Char := (s.document.content.drop s.start).take s.width

/-- A text right-aligned in a field. -/
def padLeft (width : Nat) (cs : List Char) : List Char :=
  List.replicate (width - cs.length) ' ' ++ cs

/-- The number of a row, six characters wide, with a sign or a blank in front, and a bar. -/
def label (row : Int) : String :=
  let sign := if row < 0 then '-' else ' '
  String.ofList (padLeft 6 (sign :: Nat.toDigits 10 row.natAbs) ++ [' ', '|'])

/-- The stretch as the host draws it. -/
def picture (drawing : Drawing) (s : Stretch) : Except Fault String := do
  let (row, column) ← drawing.find s.document s.start
  let text ← drawing.rowText s.document row
  drawing.illustrate text column s.width (label row) s.caption

end Stretch

end Eel
