/-
Numbers written as text.

A numeral is an optional sign and then `Infinity`, `NaN`, or a decimal: digits with
an optional point among or around them, at least one digit in all, and an optional
exponent behind an `e`.  Digits of every script count.

A text is read in two stages.  First it has to be a numeral, blanks at its ends apart.
Only then it is converted.  The conversion alone would take more: underscores between
digits, short names, and names in any case.
-/
import Eel.Number.Bits
import Eel.Number.Decimal
import Eel.Text.Blank
import Eel.Text.Digit
import Eel.Text.Pattern

namespace Eel.Number

open Eel.Text

/-! ### The pattern -/

/-- A plus or a minus. -/
def signPattern : Pattern := .one fun c => c = '+' || c = '-'

/-- One or more digits. -/
def digitsPattern : Pattern := .seq (.one isDigit) (.many isDigit)

/-- Digits with an optional point among or behind them, or a point with digits behind it. -/
def mantissaPattern : Pattern :=
  .either (.seq digitsPattern (.seq (.optional (.word ['.'])) (.many isDigit)))
    (.seq (.word ['.']) digitsPattern)

/-- An `e` of either case, an optional sign, and digits. -/
def exponentPattern : Pattern :=
  .seq (.one fun c => c = 'e' || c = 'E') (.seq (.optional signPattern) digitsPattern)

/-- What a number has to look like. -/
def numeralPattern : Pattern :=
  .seq (.optional signPattern)
    (.either (.word "Infinity".toList)
      (.either (.word "NaN".toList) (.seq mantissaPattern (.optional exponentPattern))))

/-- Whether a text is a numeral. -/
def isNumeral (cs : List Char) : Bool := numeralPattern.fits cs

/-! ### The conversion -/

/-- The text without its underscores, if each of them stands between two digits. -/
def dropUnderscores? (behindDigit : Bool) : List Char → Option (List Char)
  | [] => some []
  | '_' :: c :: cs =>
    if behindDigit && isDigit c then (dropUnderscores? true cs).map (c :: ·) else none
  | ['_'] => none
  | c :: cs => (dropUnderscores? (isDigit c) cs).map (c :: ·)

/-- An optional leading sign, `true` for a minus, and what follows it. -/
def takeSign : List Char → Bool × List Char
  | '+' :: cs => (false, cs)
  | '-' :: cs => (true, cs)
  | cs => (false, cs)

/-- The leading digits, and what follows them. -/
def takeDigits (cs : List Char) : List Char × List Char :=
  (cs.takeWhile isDigit, cs.dropWhile isDigit)

/-- A point and the digits behind it, if there is a point, and what follows them. -/
def takeFraction : List Char → List Char × List Char
  | '.' :: cs => takeDigits cs
  | cs => ([], cs)

/-- The value of an optional exponent that reaches to the end of the text. -/
def exponent? : List Char → Option Int
  | [] => some 0
  | c :: cs =>
    if c = 'e' || c = 'E' then
      let (negative, ds) := takeSign cs
      if ds.isEmpty || !ds.all isDigit then none
      else
        let n := natOfDigits ds
        some (if negative then -(n : Int) else n)
    else none

/-- An unsigned decimal that takes up the whole text. -/
def decimal? (cs : List Char) : Option Decimal :=
  let (whole, cs) := takeDigits cs
  let (fraction, cs) := takeFraction cs
  if whole.isEmpty && fraction.isEmpty then none
  else
    (exponent? cs).map fun e => ⟨natOfDigits (whole ++ fraction), e - fraction.length⟩

/-- A number with a given sign, written as a name in any case or as a decimal. -/
def magnitude? (negative : Bool) (cs : List Char) : Option Float :=
  let name := cs.map Char.toLower
  if name = "inf".toList ∨ name = "infinity".toList then some (infinity negative)
  else if name = "nan".toList then some nan
  else (decimal? cs).map fun d => ofPlace negative d.place

/-- The number that a text is converted to, if it can be. -/
def convert? (cs : List Char) : Option Float :=
  (dropUnderscores? false (trim cs)).bind fun cs =>
    let (negative, cs) := takeSign cs
    magnitude? negative cs

/-- The number that a text spells, if it is a numeral with blanks around it at most. -/
def parse? (s : String) : Option Float :=
  let cs := trim s.toList
  if isNumeral cs then convert? cs else none

/-- Whether a text spells a number. -/
def isNumeric (s : String) : Bool := (parse? s).isSome

end Eel.Number
