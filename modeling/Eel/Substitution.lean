/-
Putting the texts of variables in the place of references.

A reference is a dash with a name behind it, at the start of the text or behind a
blank; the name is the longest possible row of word characters and dashes.  A
reference to a bound name becomes the text of that name and any other stays as it
is.  One pass is made from left to right, and what was put in is not looked at again.
-/
import Eel.Environment
import Eel.Text.Blank
import Eel.Text.WordChar

namespace Eel

namespace Substitution

/-- The characters of a referenced name. -/
def isReferenceChar (c : Char) : Bool := Text.isWordChar c || c == '-'

/-- What a reference to `name` stands for: the name's text, or the reference itself. -/
def resolve (env : Environment) (name : List Char) : List Char :=
  match env.get? (String.ofList name) with
  | some value => value.toList
  | none => '-' :: name

/-- One pass over a text; `fresh` says that a reference may start here. -/
def scan (env : Environment) (fresh : Bool) (cs : List Char) : List Char :=
  match cs with
  | [] => []
  | c :: rest =>
    if fresh && c == '-' then
      match rest.takeWhile isReferenceChar with
      | [] => c :: scan env false rest
      | name => resolve env name ++ scan env false (rest.dropWhile isReferenceChar)
    else c :: scan env (Text.isBlank c) rest
termination_by cs.length
decreasing_by
  · simp
  · have := (List.dropWhile_sublist (l := rest) isReferenceChar).length_le
    simp only [List.length_cons]
    omega
  · simp

end Substitution

/-- The word with the references to bound names replaced by their texts. -/
def substitute (env : Environment) (word : String) : String :=
  String.ofList (Substitution.scan env true word.toList)

end Eel
