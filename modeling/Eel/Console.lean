/-
Computations that show something on their way.

There are two streams, one for output and one for everything else.  A fault ends such a
computation, but what it has shown by then stays shown.
-/
import Eel.Fault

namespace Eel

/-- What was shown, and what came out of it. -/
structure Console (α : Type) where
  output : String := ""
  errors : String := ""
  result : Except Fault α

namespace Console

variable {α β : Type}

/-- Shows a text on the stream for output. -/
def print (text : String) : Console Unit := { output := text, result := .ok () }

/-- Shows a text on the other stream. -/
def complain (text : String) : Console Unit := { errors := text, result := .ok () }

/-- Shows nothing. -/
def ofExcept (result : Except Fault α) : Console α := { result }

instance : Monad Console where
  pure a := ofExcept (.ok a)
  bind x f :=
    match x.result with
    | .error fault => { x with result := .error fault }
    | .ok a =>
      let y := f a
      { output := x.output ++ y.output, errors := x.errors ++ y.errors, result := y.result }

theorem bind_of_ok {x : Console α} {a : α} (f : α → Console β) (h : x.result = .ok a) :
    (x >>= f) = ⟨x.output ++ (f a).output, x.errors ++ (f a).errors, (f a).result⟩ := by
  obtain ⟨output, errors, result⟩ := x
  cases h
  rfl

theorem bind_of_error {x : Console α} {fault : Fault} (f : α → Console β)
    (h : x.result = .error fault) : (x >>= f) = ⟨x.output, x.errors, .error fault⟩ := by
  obtain ⟨output, errors, result⟩ := x
  cases h
  rfl

end Console

end Eel
