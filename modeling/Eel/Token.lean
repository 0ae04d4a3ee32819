/-
What a word can be to the evaluator.

A word that is registered as a comment marker or as an operator is one wherever it
stands.  Otherwise a dash with the name of a plain command behind it is a call, and
everything else is text.
-/
import Eel.Registry

namespace Eel

/-- A word, classified. -/
inductive Token where
  | literal (text : String)
  | operator (command : Command)
  | comment (command : Command)
  | call (command : Command)

/-- One position in a list of words that is being reduced. -/
inductive Slot where
  /-- The word that stood here has been used up. -/
  | vacant
  | word (text : String)
deriving DecidableEq, Repr

namespace Registry

/-- The plain command that a word calls. -/
def called? (r : Registry) (word : String) : Option Command :=
  match word.toList with
  | '-' :: name => r.plain? (String.ofList name)
  | _ => none

/-- What a word is. -/
def classify (r : Registry) (word : String) : Token :=
  match r.comment? word with
  | some c => .comment c
  | none =>
    match r.operator? word with
    | some c => .operator c
    | none =>
      match r.called? word with
      | some c => .call c
      | none => .literal word

/-- What the word in a slot is. -/
def token? (r : Registry) : Slot → Option Token
  | .vacant => none
  | .word w => some (r.classify w)

end Registry

namespace Slot

/-- The words that have not been used up. -/
def live : List Slot → List String
  | [] => []
  | .vacant :: slots => live slots
  | .word w :: slots => w :: live slots

/-- The number of vacant slots. -/
def gaps : List Slot → Nat
  | [] => 0
  | .vacant :: slots => gaps slots + 1
  | .word _ :: slots => gaps slots

/-- The slots that are not vacant. -/
def dense (slots : List Slot) : List Slot := (live slots).map word

@[simp] theorem live_append (a b : List Slot) : live (a ++ b) = live a ++ live b := by
  induction a with
  | nil => rfl
  | cons s a ih => cases s <;> simp [live, ih]

@[simp] theorem live_map_word (ws : List String) : live (ws.map word) = ws := by
  induction ws with
  | nil => rfl
  | cons w ws ih => simp [live, ih]

@[simp] theorem live_dense (slots : List Slot) : live (dense slots) = live slots :=
  live_map_word _

@[simp] theorem live_reverse (slots : List Slot) : live slots.reverse = (live slots).reverse := by
  induction slots with
  | nil => rfl
  | cons s slots ih => cases s <;> simp [live, ih]

@[simp] theorem live_replicate_vacant (n : Nat) : live (List.replicate n vacant) = [] := by
  induction n with
  | zero => rfl
  | succ n ih => simp [List.replicate_succ, live, ih]

@[simp] theorem gaps_append (a b : List Slot) : gaps (a ++ b) = gaps a + gaps b := by
  induction a with
  | nil => simp [gaps]
  | cons s a ih =>
    cases s with
    | word w => simp [gaps, ih]
    | vacant =>
      simp only [List.cons_append, gaps, ih]
      omega

@[simp] theorem gaps_map_word (ws : List String) : gaps (ws.map word) = 0 := by
  induction ws with
  | nil => rfl
  | cons w ws ih => simp [gaps, ih]

@[simp] theorem gaps_dense (slots : List Slot) : gaps (dense slots) = 0 := gaps_map_word _

/-- Every slot is live or vacant. -/
theorem length_eq (slots : List Slot) : slots.length = (live slots).length + gaps slots := by
  induction slots with
  | nil => rfl
  | cons s slots ih => cases s <;> simp [live, gaps, ih] <;> omega

theorem length_dense (slots : List Slot) : (dense slots).length = (live slots).length := by
  simp [dense]

end Slot

end Eel
