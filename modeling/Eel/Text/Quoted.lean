/-
Text in quotes, and the pictures of lists and of bindings built from it.

Single quotes are used unless the text holds one and holds no double quote.  The
backslash, the quote in use, and the line feed, carriage return and tab are written
with a backslash in front; every other character that is not printable is written
as its code point in hexadecimal, with as many digits as its size calls for.
-/
import Eel.Text.Pieces
import Eel.Text.Printable

namespace Eel.Text

/-- The lowest `width` hexadecimal digits of `n`, in lower case. -/
def hexDigits : (width : Nat) → (n : Nat) → List Char
  | 0, _ => []
  | width + 1, n => hexDigits width (n / 16) ++ [Nat.digitChar (n % 16)]

/-- One character as it stands between quotes of the kind `quote`. -/
def escape (quote c : Char) : List Char :=
  if c = quote || c = '\\' then ['\\', c]
  else if c = '\n' then ['\\', 'n']
  else if c = '\r' then ['\\', 'r']
  else if c = '\t' then ['\\', 't']
  else if isPrintable c then [c]
  else if c.toNat < 0x100 then '\\' :: 'x' :: hexDigits 2 c.toNat
  else if c.toNat < 0x10000 then '\\' :: 'u' :: hexDigits 4 c.toNat
  else '\\' :: 'U' :: hexDigits 8 c.toNat

/-- The quote that suits a text. -/
def quoteFor (cs : List Char) : Char :=
  if cs.contains '\'' && !cs.contains '"' then '"' else '\''

/-- The text in quotes. -/
def quoted (s : String) : String :=
  let q := quoteFor s.toList
  String.ofList (q :: (s.toList.flatMap (escape q) ++ [q]))

/-- A list of texts, each in quotes. -/
def quotedList (ws : List String) : String :=
  "[" ++ joinWith ", " (ws.map quoted) ++ "]"

/-- Named texts, names and texts in quotes. -/
def quotedPairs (ps : List (String × String)) : String :=
  "\x7b" ++ joinWith ", " (ps.map fun p => quoted p.1 ++ ": " ++ quoted p.2) ++ "\x7d"

end Eel.Text
