/-
Patterns of characters.

A pattern tells whether a text has a front that fits, such that what follows the front
passes a test.  It tries one front after the other, a longer one first, until the test
is passed.  A text as a whole fits if nothing follows.
-/
namespace Eel.Text

/-- A pattern for the front of a text, given the test for what follows the front. -/
abbrev Pattern := (List Char → Bool) → List Char → Bool

namespace Pattern

/-- One character for which `p` holds. -/
def one (p : Char → Bool) : Pattern := fun test cs =>
  match cs with
  | [] => false
  | c :: cs => p c && test cs

/-- Any number of characters for which `p` holds. -/
def many (p : Char → Bool) : Pattern := fun test cs =>
  match cs with
  | [] => test []
  | c :: cs => (p c && many p test cs) || test (c :: cs)

/-- The characters of `w`, in this order. -/
def word : (w : List Char) → Pattern
  | [] => fun test => test
  | c :: w => fun test => one (· = c) (word w test)

/-- Something that fits `a`, and behind it something that fits `b`. -/
def seq (a b : Pattern) : Pattern := fun test => a (b test)

/-- Something that fits `a` or fits `b`. -/
def either (a b : Pattern) : Pattern := fun test cs => a test cs || b test cs

/-- Something that fits `a`, or nothing. -/
def optional (a : Pattern) : Pattern := fun test cs => a test cs || test cs

/-- Whether a whole text fits. -/
def fits (a : Pattern) (cs : List Char) : Bool := a List.isEmpty cs

end Pattern

end Eel.Text
