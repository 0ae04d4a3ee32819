/-
Computations that leave a trace.

The evaluator records what it does as it goes: which command it starts on, the
words after substitution, and how the command ended.  The record survives a fault,
so a traced computation is its events together with a result or a fault.
-/
import Eel.Chance
import Eel.Fault

namespace Eel

/-- One step of an evaluation. -/
inductive Event where
  /-- A command was looked up and found. -/
  | executing (name : String)
  /-- Its words after substitution. -/
  | substituted (words : List String)
  /-- Its handler is applied to the words that are left, with its own source of chance. -/
  | dispatching (name : String) (params : List String) (chance : Chance)
  /-- Its words hold a comment where an operator or operand belongs. -/
  | abandoned (name : String)

/-- The parts of an event's line in a printed trace. -/
def Event.parts : Event → List String
  | executing name => ["executing", name]
  | substituted words => ["substituted", Text.quotedList words]
  | dispatching name params _ => ["dispatching", name, Text.quotedList params]
  | abandoned name => ["abandoned", name]

/-- One printed line of a trace, which is empty unless tracing is on. -/
def traceLine (verbose : Int) (parts : List String) : String :=
  if verbose = 0 then "" else Text.joinWith " " parts ++ "\n"

/-- A printed trace. -/
def traceText (verbose : Int) (events : List Event) : String :=
  Text.joinWith "" (events.map fun e => traceLine verbose e.parts)

/-- A computation with the events on its way and what came out of it. -/
structure Traced (α : Type) where
  events : List Event
  result : Except Fault α

namespace Traced

/-- Records one event. -/
def note (e : Event) : Traced Unit := ⟨[e], .ok ()⟩

/-- A computation without events. -/
def ofExcept {α : Type} (result : Except Fault α) : Traced α := ⟨[], result⟩

/-- Ends with a fault. -/
def fail {α : Type} (f : Fault) : Traced α := ⟨[], .error f⟩

instance : Monad Traced where
  pure a := ⟨[], .ok a⟩
  bind x f :=
    match x.result with
    | .error e => ⟨x.events, .error e⟩
    | .ok a =>
      let y := f a
      ⟨x.events ++ y.events, y.result⟩

theorem bind_of_ok {α β : Type} {x : Traced α} {a : α} (f : α → Traced β)
    (h : x.result = .ok a) : (x >>= f) = ⟨x.events ++ (f a).events, (f a).result⟩ := by
  obtain ⟨events, result⟩ := x
  cases h
  rfl

theorem bind_of_error {α β : Type} {x : Traced α} {e : Fault} (f : α → Traced β)
    (h : x.result = .error e) : (x >>= f) = ⟨x.events, .error e⟩ := by
  obtain ⟨events, result⟩ := x
  cases h
  rfl

end Traced

end Eel
