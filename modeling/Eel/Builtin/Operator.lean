/-
Operators between two operands, and the markers of comments.
-/
import Eel.Builtin.Textual
import Eel.Number.Arithmetic

namespace Eel.Builtin

/-- A command that stands between its two operands. -/
def between (glyph : String) (f : String → String → Except Fault String) : Command where
  name := glyph
  arity := some 2
  isOperator := true
  handler _ params :=
    match params with
    | a :: b :: _ => (f a b).map .ofValue
    | ps => .error (.operandsMissing ps.length)

/-- An operator on numbers. -/
def betweenNumbers (glyph : String) (f : Float → Float → Except Fault Float) : Command :=
  between glyph fun a b => do return Number.text (← f (← numberOf a) (← numberOf b))

/-- An operator on texts. -/
def betweenTexts (glyph : String) (f : String → String → String) : Command :=
  between glyph fun a b => .ok (f a b)

/-- A marker behind which a line is a comment. -/
def marker (glyph : String) : Command where
  name := glyph
  isOperator := true
  isComment := true
  handler _ _ := .ok { log := [⟨.output, none, 0⟩] }

/-- The operators. -/
def operators : List Command := [
  betweenNumbers "++" fun x y => .ok (x + y),
  betweenNumbers "**" fun x y => .ok (x * y),
  betweenNumbers "^^" Number.power,
  betweenTexts "==" fun a b => truthText (a == b),
  betweenTexts "!=" fun a b => truthText (a != b),
  betweenTexts "<<" fun a b => truthText (isLess a b),
  betweenTexts ">>" fun a b => truthText (isGreater a b),
  betweenTexts "&&" both,
  betweenTexts "||" either,
  betweenTexts ".." (· ++ ·)]

/-- The markers of comments. -/
def markers : List Command := [marker "//", marker "/*", marker "--"]

end Eel.Builtin
