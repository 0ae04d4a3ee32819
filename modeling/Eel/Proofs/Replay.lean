/-
The trace of an evaluation tells everything the evaluation did.

A trace is read in two ways.  As a text it is a row of calls, each of them an opening,
the words after substitution, the calls nested in it and one closing: `Calls` is that
grammar.  As a program it runs on a stack.  An opening pushes a frame, a closing pops
it and hands a row of outcomes to the frame below: the outcomes collected so far and
the handler's own, or a single empty outcome if the call was abandoned.

`replay_evaluate` says that the trace of every finished evaluation is one call of that
grammar, and that running it gives the outcome of the evaluation field by field.  The
handlers are asked again, with the parameters and the source of chance that the trace
records, and nothing else of the evaluation is used.

The proof is an induction on the nesting, with the induction of the scan inside.  What
is carried along is `Plays`: a trace that, put on any stack at all, only adds its row
to the frame on top.
-/
import Eel.Builtin.Catalogue
import Eel.Proofs.Merging
import Eel.Proofs.Scan

namespace Eel

/-- The event ends a call of `name`. -/
def Event.Closes (name : String) : Event → Prop
  | dispatching n _ _ => n = name
  | abandoned n => n = name
  | _ => False

/-- A row of finished calls, each with the calls nested in it. -/
inductive Calls : List Event → Prop
  | nil : Calls []
  | call {name : String} (words : List String) {inner rest : List Event} {closing : Event}
      (hinner : Calls inner) (hclosing : closing.Closes name) (hrest : Calls rest) :
      Calls (.executing name :: .substituted words :: (inner ++ closing :: rest))

theorem Calls.append {xs ys : List Event} (hx : Calls xs) (hy : Calls ys) : Calls (xs ++ ys) := by
  induction hx with
  | nil => exact hy
  | call words hinner hclosing _ _ ih =>
    have hcall := Calls.call words hinner hclosing ih
    simpa using hcall

/-- The trace of one finished call: opening, words, nested calls, and one closing. -/
structure IsCall (name : String) (events : List Event) (closing : Event) : Prop where
  form : ∃ words inner, events = .executing name :: .substituted words :: (inner ++ [closing]) ∧
    Calls inner
  closes : closing.Closes name

theorem IsCall.calls {name : String} {events : List Event} {closing : Event}
    (h : IsCall name events closing) : Calls events := by
  obtain ⟨words, inner, rfl, hinner⟩ := h.form
  exact .call words hinner h.closes .nil

/-! ### The stack -/

namespace Replay

/-- A call that has been opened, and the outcomes of what was nested in it. -/
structure Frame where
  name : String
  collected : List Outcome

/-- The open calls, innermost first, and what the calls outside of all of them returned. -/
structure Stack where
  frames : List Frame := []
  returned : List Outcome := []

/-- Hands a row of outcomes to the innermost open call. -/
def Stack.give (s : Stack) (row : List Outcome) : Stack :=
  match s.frames with
  | [] => { s with returned := s.returned ++ row }
  | f :: fs => { s with frames := { f with collected := f.collected ++ row } :: fs }

/-- Pops the innermost call, which has to be one of `name`; `answer` is what it returns. -/
def Stack.pop (s : Stack) (name : String) (answer : List Outcome → Option (List Outcome)) :
    Option Stack :=
  match s.frames with
  | [] => none
  | f :: fs =>
    if f.name = name then (answer f.collected).map fun row => Stack.give { s with frames := fs } row
    else none

/-- The outcome of the handler that a trace names; none if there is no such handler or it fails. -/
def handled (r : Registry) (name : String) (params : List String) (chance : Chance) :
    Option Outcome :=
  (r.get? name).bind fun c => (c.handler chance params).toOption

/-- What one event does to the stack. -/
def step (r : Registry) (s : Stack) : Event → Option Stack
  | .executing name => some { s with frames := ⟨name, []⟩ :: s.frames }
  | .substituted _ => some s
  | .dispatching name params chance =>
    s.pop name fun collected => (handled r name params chance).map fun own => collected ++ [own]
  | .abandoned name => s.pop name fun _ => some [{}]

/-- What a whole trace does to the stack. -/
def run (r : Registry) (s : Stack) (events : List Event) : Option Stack := events.foldlM (step r) s

/-- The outcomes a trace leaves behind when every call in it has been closed. -/
def replay (r : Registry) (events : List Event) : Option (List Outcome) :=
  match run r {} events with
  | some ⟨[], returned⟩ => some returned
  | _ => none

/-! ### Traces that add a row to any stack -/

theorem run_append (r : Registry) (s : Stack) (xs ys : List Event) :
    run r s (xs ++ ys) = (run r s xs).bind fun t => run r t ys :=
  List.foldlM_append

theorem run_cons (r : Registry) (s : Stack) (e : Event) (events : List Event) :
    run r s (e :: events) = (step r s e).bind fun t => run r t events :=
  List.foldlM_cons

theorem give_nil (s : Stack) : s.give [] = s := by
  obtain ⟨frames, returned⟩ := s
  cases frames with
  | nil => simp [Stack.give]
  | cons f fs => simp [Stack.give]

theorem give_give (s : Stack) (row more : List Outcome) :
    (s.give row).give more = s.give (row ++ more) := by
  obtain ⟨frames, returned⟩ := s
  cases frames with
  | nil => simp [Stack.give]
  | cons f fs => simp [Stack.give]

/-- The trace runs on every stack and adds `row` to it. -/
def Plays (r : Registry) (events : List Event) (row : List Outcome) : Prop :=
  ∀ s : Stack, run r s events = some (s.give row)

theorem plays_nil (r : Registry) : Plays r [] [] := by
  intro s
  rw [give_nil]
  rfl

theorem Plays.append {r : Registry} {xs ys : List Event} {row more : List Outcome}
    (hx : Plays r xs row) (hy : Plays r ys more) : Plays r (xs ++ ys) (row ++ more) := by
  intro s
  rw [run_append, hx s, Option.bind_some, hy (s.give row), give_give]

/-- A call plays what its closing makes of the row that its nested calls play. -/
theorem Plays.call {r : Registry} {name : String} {inner : List Event} {closing : Event}
    {row answer : List Outcome} (words : List String) (hinner : Plays r inner row)
    (hclosing : ∀ s : Stack,
      step r { s with frames := ⟨name, row⟩ :: s.frames } closing = some (s.give answer)) :
    Plays r (.executing name :: .substituted words :: (inner ++ [closing])) answer := by
  intro s
  have hopened : Stack.give { s with frames := ⟨name, []⟩ :: s.frames } row
      = { s with frames := ⟨name, row⟩ :: s.frames } := by simp [Stack.give]
  rw [run_cons, step, Option.bind_some, run_cons, step, Option.bind_some, run_append,
    hinner, Option.bind_some, hopened, run_cons, hclosing s]
  rfl

theorem replay_of_plays {r : Registry} {events : List Event} {row : List Outcome}
    (h : Plays r events row) : replay r events = some row := by
  rw [replay, h {}]
  simp [Stack.give]

/-! ### Evaluations leave such traces -/

/-- The trace is one finished call of `name`, and the row that it plays comes to `o`. -/
def Tells (r : Registry) (name : String) (events : List Event) (o : Outcome) : Prop :=
  ∃ closing row, IsCall name events closing ∧ Plays r events row ∧ row ≠ [] ∧ o = .total row

/--
The events of a scan are finished calls, and the row that they play stands for the
outcomes that the scan added to `parts`: it can take their place in front of any others.
-/
def Gathers (r : Registry) (parts : List Outcome)
    (x : Traced (Option (List String × List Outcome))) : Prop :=
  ∀ res, x.result = .ok res → Calls x.events ∧ ∃ row, Plays r x.events row ∧
    ∀ params all, res = some (params, all) →
      ∀ more, Outcome.total (all ++ more) = .total (parts ++ row ++ more)

/-- A scan that ends at once adds nothing. -/
theorem gathers_pure (r : Registry) (parts : List Outcome)
    {res : Option (List String × List Outcome)}
    (h : ∀ params all, res = some (params, all) → all = parts) : Gathers r parts (pure res) := by
  intro res' hres
  cases hres
  refine ⟨.nil, [], plays_nil r, ?_⟩
  intro params all hall more
  rw [h params all hall, List.append_nil]

/-- A nested evaluation puts its call in front of those that come later. -/
theorem gathers_bind {r : Registry} {name : String} {x : Traced Outcome} {parts : List Outcome}
    {f : Outcome → Traced (Option (List String × List Outcome))}
    (hx : ∀ o, x.result = .ok o → Tells r name x.events o)
    (hf : ∀ part, Gathers r (parts ++ [part]) (f part)) : Gathers r parts (x >>= f) := by
  intro res h
  obtain ⟨part, hpart, hrest, hevents⟩ := Traced.bind_ok h
  obtain ⟨closing, own, hcall, hplays, hne, rfl⟩ := hx part hpart
  obtain ⟨hcalls, row, hrow, htotal⟩ := hf _ _ hrest
  rw [hevents]
  refine ⟨hcall.calls.append hcalls, own ++ row, hplays.append hrow, ?_⟩
  intro params all hres more
  calc Outcome.total (all ++ more)
      = .total (parts ++ Outcome.total own :: (row ++ more)) := by
        simpa using htotal params all hres more
    _ = .total (parts ++ (own ++ row) ++ more) := by
        rw [Outcome.total_flatten _ _ hne]
        simp

theorem gathers_sweep {r : Registry} {run : Nat → Command → List Slot → Traced Outcome}
    (hrun : ∀ k c args o, r.Knows c → (run k c args).result = .ok o →
      Tells r c.name (run k c args).events o) :
    ∀ (passed rest : List Slot) (parts : List Outcome),
      Gathers r parts (Reduction.sweep r run passed rest parts) := by
  intro passed rest parts
  induction passed, rest, parts using Reduction.sweep_induction r with
  | nil passed parts =>
    rw [Reduction.sweep_nil]
    exact gathers_pure r parts (by simp)
  | vacant passed more parts ih =>
    rw [Reduction.sweep_vacant]
    exact ih
  | abandon passed w behind parts hmove =>
    rw [Reduction.sweep_abandon _ _ _ hmove]
    exact gathers_pure r parts (by simp)
  | operate passed w behind parts c right tail hmove ih =>
    rw [Reduction.sweep_operate _ _ _ hmove]
    exact gathers_bind (fun o => hrun _ c _ o (Registry.knows_of_move_operate hmove)) ih
  | call passed w behind parts c hmove ih =>
    rw [Reduction.sweep_call _ _ _ hmove]
    exact gathers_bind (fun o => hrun _ c _ o (Registry.knows_of_move_call hmove)) ih
  | advance passed w behind parts hmove ih =>
    rw [Reduction.sweep_advance _ _ _ hmove]
    exact ih

/-! ### The stack gives the outcome -/

/-- Which closing an evaluation has, and what it makes of the row played before it. -/
theorem conclude_closes {r : Registry} {chance : Chance} {name : String} {c : Command}
    {res : Option (List String × List Outcome)} {o : Outcome} (hc : r.get? name = some c)
    (h : (conclude chance name c res).result = .ok o) (row : List Outcome) :
    ∃ closing answer, (conclude chance name c res).events = [closing] ∧ closing.Closes name ∧
      (∀ s : Stack, step r { s with frames := ⟨name, row⟩ :: s.frames } closing
        = some (s.give answer)) ∧
      ((closing = .abandoned name ∧ o = {} ∧ answer = [{}]) ∨
        ∃ params parts own, res = some (params, parts) ∧
          closing = .dispatching name params chance ∧ c.handler chance params = .ok own ∧
          o = .compose parts own ∧ answer = row ++ [own]) := by
  rcases conclude_ok h with ⟨rfl, rfl, hevents⟩ | ⟨params, parts, own, rfl, hown, rfl, hevents⟩
  · refine ⟨_, [{}], hevents, rfl, ?_, .inl ⟨rfl, rfl, rfl⟩⟩
    intro s
    simp [step, Stack.pop]
  · refine ⟨_, row ++ [own], hevents, rfl, ?_, .inr ⟨params, parts, own, rfl, rfl, hown, rfl, rfl⟩⟩
    intro s
    simp [step, Stack.pop, handled, hc, hown, Except.toOption]

/--
What the closing of an evaluation says about its value: an abandoned evaluation has an
empty outcome, and any other one the value of its own handler.
-/
def Answers (c : Command) (name : String) (chance : Chance) (closing : Event) (o : Outcome) :
    Prop :=
  (closing = .abandoned name ∧ o = {}) ∨
  ∃ params own, closing = .dispatching name params chance ∧ c.handler chance params = .ok own ∧
    o.value = own.value

/-- The trace of a finished evaluation, read as a call and as a program. -/
theorem evaluate_plays {r : Registry} {env : Environment} :
    ∀ (nesting : Nat) {chance : Chance} {name : String} {slots : List Slot} {c : Command}
      {o : Outcome}, r.get? name = some c →
      (evaluate r env nesting chance name slots).result = .ok o →
      ∃ closing row, IsCall name (evaluate r env nesting chance name slots).events closing ∧
        Plays r (evaluate r env nesting chance name slots).events row ∧ row ≠ [] ∧
        o = .total row ∧ Answers c name chance closing o := by
  intro nesting
  induction nesting with
  | zero => intro chance name slots c o _ h; cases h
  | succ n ih =>
    intro chance name slots c o hc h
    obtain ⟨m, res, hm, hscan, hend, hevents⟩ := evaluate_ok hc h
    obtain rfl : n = m := Nat.succ.inj hm
    have hnested : ∀ k d args o, r.Knows d → (nested r env n chance k d args).result = .ok o →
        Tells r d.name (nested r env n chance k d args).events o := by
      intro k d args o hd ho
      obtain ⟨closing, row, hcall, hplays, hne, htotal, -⟩ := ih hd ho
      exact ⟨closing, row, hcall, hplays, hne, htotal⟩
    obtain ⟨hcalls, row, hrow, htotal⟩ := gathers_sweep hnested _ _ _ _ hscan
    obtain ⟨closing, answer, hclosing, hcloses, hstep, hanswer⟩ := conclude_closes hc hend row
    rw [hclosing] at hevents
    refine ⟨closing, answer, ⟨⟨_, _, hevents, hcalls⟩, hcloses⟩, ?_, ?_⟩
    · rw [hevents]
      exact Plays.call _ hrow hstep
    · rcases hanswer with ⟨hcl, ho, rfl⟩ | ⟨params, parts, own, hres, hcl, hown, ho, rfl⟩
      · exact ⟨by simp, ho, .inl ⟨hcl, ho⟩⟩
      · refine ⟨by simp, ?_, .inr ⟨params, own, hcl, hown, ?_⟩⟩
        · rw [ho, Outcome.compose_eq_total]
          exact htotal params parts hres [own]
        · rw [ho, Outcome.value_compose]

end Replay

open Replay in
/--
**The trace of an evaluation replays to its outcome.**  It is one call with everything
nested in it properly opened and closed.  The stack machine, run over it, leaves a row
of outcomes; their entries one after the other, their writes each over the earlier
ones and any halt among them are the log, the writes and the halt of the evaluation.
The value is that of the handler dispatched last, and an abandoned call leaves nothing.
-/
theorem replay_evaluate {r : Registry} {env : Environment} {nesting : Nat} {chance : Chance}
    {name : String} {slots : List Slot} {c : Command} {o : Outcome} (hc : r.get? name = some c)
    (h : (evaluate r env nesting chance name slots).result = .ok o) :
    ∃ closing row, IsCall name (evaluate r env nesting chance name slots).events closing ∧
      replay r (evaluate r env nesting chance name slots).events = some row ∧
      o.log = row.flatMap Outcome.log ∧
      o.writes = row.foldl (fun w p => w.merge p.writes) ∅ ∧
      o.halt = row.any Outcome.halt ∧ Answers c name chance closing o := by
  obtain ⟨closing, row, hcall, hplays, -, rfl, hanswer⟩ := evaluate_plays nesting hc h
  exact ⟨closing, row, hcall, replay_of_plays hplays, Outcome.log_total row,
    Outcome.writes_total row, Outcome.halt_total row, hanswer⟩

/-- A comment abandons one nested call, and what the other one binds is kept. -/
theorem replay_evaluate_comment_inside :
    (evaluate Builtin.registry .initial 2 (.constant 0) "print"
      (["-join", "a", "//", "-set", "x", "b"].map .word)).result =
        .ok { log := [⟨.output, some "true b", 0⟩], writes := .singleton "x" "b" } ∧
    ∃ closing row, IsCall "print" (evaluate Builtin.registry .initial 2 (.constant 0) "print"
        (["-join", "a", "//", "-set", "x", "b"].map .word)).events closing ∧
      Replay.replay Builtin.registry (evaluate Builtin.registry .initial 2 (.constant 0) "print"
        (["-join", "a", "//", "-set", "x", "b"].map .word)).events = some row ∧
      [⟨.output, some "true b", 0⟩] = row.flatMap Outcome.log ∧
      Bindings.singleton "x" "b" = row.foldl (fun w p => w.merge p.writes) ∅ ∧
      false = row.any Outcome.halt ∧
      Replay.Answers (Builtin.logging "print" .output false) "print" (.constant 0) closing
        { log := [⟨.output, some "true b", 0⟩], writes := .singleton "x" "b" } := by
  have hc : Builtin.registry.get? "print" = some (Builtin.logging "print" .output false) := rfl
  have h : (evaluate Builtin.registry .initial 2 (.constant 0) "print"
      (["-join", "a", "//", "-set", "x", "b"].map .word)).result =
        .ok { log := [⟨.output, some "true b", 0⟩], writes := .singleton "x" "b" } := by
    decide +kernel
  exact ⟨h, replay_evaluate hc h⟩

end Eel
