/-
Which way an evaluation goes depends on values alone.

Of all that a handler answers, the scan looks at the value and at nothing else.  Entries,
writes and the halt flag are carried along and come out at the end.  So take two registries
with the same names whose commands look alike and give the same values and faults.  Whatever
else their handlers do, evaluations go the same way in both: same trace, same commands
abandoned, and the same value or fault in the end.

Two evaluations are compared through a relation between outcomes that knows the value and
passes through compositions (`Outcome.Congruence`).  `sweep_corresponds` takes two scans
through their moves side by side, and `evaluate_corresponds` does it for evaluations.

What becomes of the halt flag can be read off the trace.  `Dispatch.surviving` lists the
handler calls on record that are not inside an abandoned command, and an evaluation of a
known command halts exactly if one of these calls does.
-/
import Mathlib.Data.List.Forall2
import Eel.Proofs.Replay

namespace Eel

/-! ### Computations that correspond -/

namespace Traced

variable {α β γ δ : Type} {S : α → β → Prop} {T : γ → δ → Prop}

/-- The same fault on both sides, or results that `S` relates. -/
inductive Agree (S : α → β → Prop) : Except Fault α → Except Fault β → Prop
  | error (fault : Fault) : Agree S (.error fault) (.error fault)
  | ok {a : α} {b : β} (h : S a b) : Agree S (.ok a) (.ok b)

/-- The same events, on the way to results that agree. -/
structure Corresponds (S : α → β → Prop) (x : Traced α) (y : Traced β) : Prop where
  events : x.events = y.events
  result : Agree S x.result y.result

theorem corresponds_pure {a : α} {b : β} (h : S a b) : Corresponds S (pure a) (pure b) :=
  ⟨rfl, .ok h⟩

theorem corresponds_note (e : Event) : Corresponds Eq (note e) (note e) := ⟨rfl, .ok rfl⟩

theorem Corresponds.bind {x : Traced α} {y : Traced β} (h : Corresponds S x y)
    {f : α → Traced γ} {g : β → Traced δ} (hfg : ∀ a b, S a b → Corresponds T (f a) (g b)) :
    Corresponds T (x >>= f) (y >>= g) := by
  obtain ⟨events, result⟩ := x
  obtain ⟨events', result'⟩ := y
  obtain ⟨rfl, hresult⟩ := h
  cases hresult with
  | error fault => exact ⟨rfl, .error fault⟩
  | ok hab =>
    have hlater := hfg _ _ hab
    exact ⟨congrArg (events ++ ·) hlater.events, hlater.result⟩

theorem Agree.map_eq {ε : Type} {x : Except Fault α} {y : Except Fault β} (h : Agree S x y)
    {f : α → ε} {g : β → ε} (hfg : ∀ a b, S a b → f a = g b) : x.map f = y.map g := by
  cases h with
  | error fault => rfl
  | ok hab => exact congrArg Except.ok (hfg _ _ hab)

/-- A result agrees with what becomes of it if `S` relates the two. -/
theorem agree_map {f : α → β} (h : ∀ a, S a (f a)) (x : Except Fault α) : Agree S x (x.map f) := by
  cases x with
  | error fault => exact .error fault
  | ok a => exact .ok (h a)

theorem Corresponds.eq {x y : Traced α} (h : Corresponds Eq x y) : x = y := by
  obtain ⟨events, result⟩ := x
  obtain ⟨events', result'⟩ := y
  obtain ⟨rfl, hresult⟩ := h
  cases hresult with
  | error fault => rfl
  | ok hab => rw [hab]

end Traced

/-! ### Commands that look alike -/

namespace Command

/-- The commands have the same name, take as many words and stand in the same places. -/
structure SameForm (c d : Command) : Prop where
  name : c.name = d.name
  arity : c.arity = d.arity
  isOperator : c.isOperator = d.isOperator
  isComment : c.isComment = d.isComment

/-- On all parameters the handlers have the same fault, or outcomes that `S` relates. -/
def AnswersLike (S : Outcome → Outcome → Prop) (c d : Command) : Prop :=
  ∀ chance params, Traced.Agree S (c.handler chance params) (d.handler chance params)

theorem SameForm.portion {α : Type} {c d : Command} (h : c.SameForm d) (i : Nat) (ws : List α) :
    c.portion i ws = d.portion i ws := by
  simp only [Command.portion, h.arity]

end Command

/-- The tokens are of one kind, and their commands look alike. -/
inductive Token.SameForm : Token → Token → Prop
  | literal (text : String) : SameForm (.literal text) (.literal text)
  | operator {c d : Command} (h : c.SameForm d) : SameForm (.operator c) (.operator d)
  | comment {c d : Command} (h : c.SameForm d) : SameForm (.comment c) (.comment d)
  | call {c d : Command} (h : c.SameForm d) : SameForm (.call c) (.call d)

/-- The moves are of one kind, and their commands look alike. -/
inductive Move.SameForm : Move → Move → Prop
  | abandon : SameForm .abandon .abandon
  | operate {c d : Command} (h : c.SameForm d) (right : Slot) (tail : List Slot) :
      SameForm (.operate c right tail) (.operate d right tail)
  | call {c d : Command} (h : c.SameForm d) : SameForm (.call c) (.call d)
  | advance : SameForm .advance .advance

namespace Registry

/-- The registries know the same names, and commands of one name look alike. -/
def SameForm (r q : Registry) : Prop :=
  ∀ name, Option.Rel Command.SameForm (r.get? name) (q.get? name)

/-- Commands of one name answer alike. -/
def AnswersLike (S : Outcome → Outcome → Prop) (r q : Registry) : Prop :=
  ∀ name c d, r.get? name = some c → q.get? name = some d → c.AnswersLike S d

variable {r q : Registry}

/-- A name is known to both registries or to neither. -/
theorem SameForm.get?_cases (h : r.SameForm q) (name : String) :
    (r.get? name = none ∧ q.get? name = none) ∨
      ∃ c d, r.get? name = some c ∧ q.get? name = some d ∧ c.SameForm d := by
  have hget := h name
  generalize r.get? name = a at hget ⊢
  generalize q.get? name = b at hget ⊢
  cases hget with
  | none => exact .inl ⟨rfl, rfl⟩
  | @some c d hcd => exact .inr ⟨c, d, rfl, rfl, hcd⟩

theorem SameForm.filter (h : r.SameForm q) (name : String) {p : Command → Bool}
    (hp : ∀ {c d : Command}, c.SameForm d → p c = p d) :
    Option.Rel Command.SameForm ((r.get? name).filter p) ((q.get? name).filter p) := by
  rcases h.get?_cases name with ⟨hc, hd⟩ | ⟨c, d, hc, hd, hcd⟩
  · rw [hc, hd]
    exact .none
  · rw [hc, hd, Option.filter_some, Option.filter_some, hp hcd]
    split
    · exact .some hcd
    · exact .none

theorem SameForm.comment? (h : r.SameForm q) (w : String) :
    Option.Rel Command.SameForm (r.comment? w) (q.comment? w) :=
  h.filter w fun hcd => hcd.isComment

theorem SameForm.operator? (h : r.SameForm q) (w : String) :
    Option.Rel Command.SameForm (r.operator? w) (q.operator? w) :=
  h.filter w fun hcd => by rw [Command.isDyadic, Command.isDyadic, hcd.isOperator, hcd.isComment]

theorem SameForm.called? (h : r.SameForm q) (w : String) :
    Option.Rel Command.SameForm (r.called? w) (q.called? w) := by
  unfold Registry.called?
  split
  · exact h.filter _ fun hcd => by
      rw [Command.isPlain, Command.isPlain, hcd.isOperator, hcd.isComment]
  · exact .none

theorem SameForm.classify (h : r.SameForm q) (w : String) :
    (r.classify w).SameForm (q.classify w) := by
  have hcomment := h.comment? w
  have hoperator := h.operator? w
  have hcalled := h.called? w
  unfold Registry.classify
  generalize r.comment? w = a at hcomment ⊢
  generalize q.comment? w = b at hcomment ⊢
  cases hcomment with
  | some hcd => exact .comment hcd
  | none =>
    generalize r.operator? w = a at hoperator ⊢
    generalize q.operator? w = b at hoperator ⊢
    cases hoperator with
    | some hcd => exact .operator hcd
    | none =>
      generalize r.called? w = a at hcalled ⊢
      generalize q.called? w = b at hcalled ⊢
      cases hcalled with
      | some hcd => exact .call hcd
      | none => exact .literal w

theorem SameForm.moveAlone (h : r.SameForm q) (w : String) :
    (r.moveAlone w).SameForm (q.moveAlone w) := by
  have hword := h.classify w
  unfold Registry.moveAlone
  generalize r.classify w = a at hword ⊢
  generalize q.classify w = b at hword ⊢
  cases hword with
  | call hcd => exact .call hcd
  | literal text => exact .advance
  | operator hcd => exact .advance
  | comment hcd => exact .advance

/-- Registries that look alike make the same move. -/
theorem SameForm.move (h : r.SameForm q) (w : String) (behind : List Slot) :
    (r.move w behind).SameForm (q.move w behind) := by
  match behind with
  | [] | .vacant :: _ => exact h.moveAlone w
  | .word next :: more =>
    have hnext := h.classify next
    unfold Registry.move
    simp only [token?]
    generalize r.classify next = a at hnext ⊢
    generalize q.classify next = b at hnext ⊢
    cases hnext with
    | comment hcd => exact .abandon
    | literal text => exact h.moveAlone w
    | call hcd => exact h.moveAlone w
    | operator hcd =>
      match more with
      | [] => exact h.moveAlone w
      | .vacant :: tail => exact .operate hcd .vacant tail
      | .word x :: tail =>
        have hx := h.classify x
        simp only
        generalize r.classify x = a at hx ⊢
        generalize q.classify x = b at hx ⊢
        cases hx with
        | comment _ => exact .abandon
        | literal text => exact .operate hcd _ tail
        | operator _ => exact .operate hcd _ tail
        | call _ => exact .operate hcd _ tail

/-! ### No move is made with a comment marker -/

theorem isComment_of_operator? {w : String} {c : Command} (h : r.operator? w = some c) :
    c.isComment = false := by
  have hdyadic := (Option.filter_eq_some_iff.mp h).2
  simp only [Command.isDyadic, Bool.and_eq_true, Bool.not_eq_true'] at hdyadic
  exact hdyadic.2

theorem isComment_of_plain? {w : String} {c : Command} (h : r.plain? w = some c) :
    c.isComment = false := by
  have hplain := (Option.filter_eq_some_iff.mp h).2
  simp only [Command.isPlain, Bool.not_eq_true', Bool.or_eq_false_iff] at hplain
  exact hplain.2

theorem isComment_of_move_operate {w : String} {behind : List Slot} {c : Command} {right : Slot}
    {tail : List Slot} (h : r.move w behind = .operate c right tail) : c.isComment = false := by
  obtain ⟨op, -, hop⟩ := move_eq_operate h
  exact isComment_of_operator? (operator?_of_classify hop)

theorem isComment_of_move_call {w : String} {behind : List Slot} {c : Command}
    (h : r.move w behind = .call c) : c.isComment = false := by
  have hcalled := called?_of_classify (classify_of_move_call h)
  unfold called? at hcalled
  split at hcalled
  · exact isComment_of_plain? hcalled
  · cases hcalled

end Registry

/-! ### Two scans and two evaluations side by side -/

namespace Outcome

/-- The relation fixes the value, and it passes to one outcome after another. -/
structure Congruence (S : Outcome → Outcome → Prop) : Prop where
  value : ∀ {a b}, S a b → a.value = b.value
  refl : ∀ o, S o o
  append : ∀ {a b c d}, S a b → S c d → S (a.append c) (b.append d)

theorem Congruence.compose {S : Outcome → Outcome → Prop} (hS : Congruence S)
    {parts parts' : List Outcome} (hparts : List.Forall₂ S parts parts') {own own' : Outcome}
    (hown : S own own') : S (compose parts own) (compose parts' own') := by
  have hstep : Relator.LiftFun S (Relator.LiftFun S S) Outcome.append Outcome.append :=
    fun _ _ hab _ _ hcd => hS.append hab hcd
  exact List.rel_foldl hstep (hS.refl {}) (List.rel_append hparts (.cons hown .nil))

end Outcome

/-- What two scans leave: nothing, or the same words and outcomes that `S` relates in turn. -/
def ScansAgree (S : Outcome → Outcome → Prop) :
    Option (List String × List Outcome) → Option (List String × List Outcome) → Prop :=
  Option.Rel fun p q => p.1 = q.1 ∧ List.Forall₂ S p.2 q.2

section

open Traced

variable {r q : Registry} {S : Outcome → Outcome → Prop}

/--
Two scans of the same words correspond if the evaluations that they ask for do.  Only the
values of these evaluations have to be the same.
-/
theorem sweep_corresponds (hform : r.SameForm q) (hS : Outcome.Congruence S)
    {run run' : Nat → Command → List Slot → Traced Outcome}
    (hrun : ∀ k c d args, r.Knows c → q.Knows d → c.SameForm d → c.isComment = false →
      Corresponds S (run k c args) (run' k d args)) :
    ∀ (passed rest : List Slot) (parts parts' : List Outcome), List.Forall₂ S parts parts' →
      Corresponds (ScansAgree S) (Reduction.sweep r run passed rest parts)
        (Reduction.sweep q run' passed rest parts') := by
  intro passed rest parts
  induction passed, rest, parts using Reduction.sweep_induction r with
  | nil passed parts =>
    intro parts' hparts
    rw [Reduction.sweep_nil, Reduction.sweep_nil]
    exact corresponds_pure (.some ⟨rfl, hparts⟩)
  | vacant passed more parts ih =>
    intro parts' hparts
    rw [Reduction.sweep_vacant, Reduction.sweep_vacant]
    exact ih parts' hparts
  | abandon passed w behind parts hmove =>
    intro parts' _
    have hmove' := hform.move w behind
    rw [hmove] at hmove'
    generalize hq : q.move w behind = m at hmove'
    cases hmove' with
    | abandon =>
      rw [Reduction.sweep_abandon _ _ _ hmove, Reduction.sweep_abandon _ _ _ hq]
      exact corresponds_pure .none
  | operate passed w behind parts c right tail hmove ih =>
    intro parts' hparts
    have hmove' := hform.move w behind
    rw [hmove] at hmove'
    generalize hq : q.move w behind = m at hmove'
    cases hmove' with
    | operate hcd =>
      rw [Reduction.sweep_operate _ _ _ hmove, Reduction.sweep_operate _ _ _ hq,
        ← hparts.length_eq]
      refine (hrun _ _ _ _ (Registry.knows_of_move_operate hmove)
        (Registry.knows_of_move_operate hq) hcd (Registry.isComment_of_move_operate hmove)).bind ?_
      intro part part' hpart
      have hlater := ih part _ (List.rel_append hparts (.cons hpart .nil))
      rwa [hS.value hpart] at hlater ⊢
  | call passed w behind parts c hmove ih =>
    intro parts' hparts
    have hmove' := hform.move w behind
    rw [hmove] at hmove'
    generalize hq : q.move w behind = m at hmove'
    cases hmove' with
    | call hcd =>
      rw [Reduction.sweep_call _ _ _ hmove, Reduction.sweep_call _ _ _ hq, ← hparts.length_eq,
        ← hcd.portion]
      refine (hrun _ _ _ _ (Registry.knows_of_move_call hmove)
        (Registry.knows_of_move_call hq) hcd (Registry.isComment_of_move_call hmove)).bind ?_
      intro part part' hpart
      have hlater := ih part _ (List.rel_append hparts (.cons hpart .nil))
      rwa [hS.value hpart] at hlater ⊢
  | advance passed w behind parts hmove ih =>
    intro parts' hparts
    have hmove' := hform.move w behind
    rw [hmove] at hmove'
    generalize hq : q.move w behind = m at hmove'
    cases hmove' with
    | advance =>
      rw [Reduction.sweep_advance _ _ _ hmove, Reduction.sweep_advance _ _ _ hq]
      exact ih parts' hparts

theorem conclude_corresponds (hS : Outcome.Congruence S) {c d : Command}
    (hcd : c.AnswersLike S d) (chance : Chance) (name : String)
    {res res' : Option (List String × List Outcome)} (hres : ScansAgree S res res') :
    Corresponds S (conclude chance name c res) (conclude chance name d res') := by
  cases hres with
  | none => exact ⟨rfl, .ok (hS.refl {})⟩
  | @some found found' hfound =>
    obtain ⟨params, parts⟩ := found
    obtain ⟨params', parts'⟩ := found'
    obtain ⟨rfl, hparts⟩ := hfound
    rw [conclude_some, conclude_some]
    refine ⟨rfl, ?_⟩
    have hanswer := hcd chance params
    generalize c.handler chance params = a at hanswer
    generalize d.handler chance params = b at hanswer
    cases hanswer with
    | error fault => exact .error fault
    | ok hown => exact .ok (hS.compose hparts hown)

/--
**Two evaluations of one command correspond** if the registries look alike, the handlers of
the command answer alike, and so do those of all commands that can be nested.  Comment
markers are not among the latter.
-/
theorem evaluate_corresponds (hform : r.SameForm q) (hS : Outcome.Congruence S)
    (hnested : ∀ name c d, r.get? name = some c → q.get? name = some d → c.isComment = false →
      c.AnswersLike S d) (env : Environment) :
    ∀ (nesting : Nat) (chance : Chance) (name : String) (slots : List Slot),
      (∀ c d, r.get? name = some c → q.get? name = some d → c.AnswersLike S d) →
      Corresponds S (evaluate r env nesting chance name slots)
        (evaluate q env nesting chance name slots) := by
  intro nesting
  induction nesting with
  | zero =>
    intro chance name slots _
    exact ⟨rfl, .error .nestingTooDeep⟩
  | succ n ih =>
    intro chance name slots hown
    rcases hform.get?_cases name with ⟨hc, hd⟩ | ⟨c, d, hc, hd, -⟩
    · rw [evaluate, evaluate, hc, hd]
      exact corresponds_pure (hS.refl _)
    · -- A nested command is the only one of its name, and no comment marker.
      have hrun : ∀ k c d args, r.Knows c → q.Knows d → c.SameForm d → c.isComment = false →
          Corresponds S (nested r env n chance k c args) (nested q env n chance k d args) := by
        intro k c d args hc hd hcd hcomment
        rw [nested, nested, ← hcd.name]
        refine ih _ _ _ fun c' d' hc' hd' => ?_
        cases hc.symm.trans hc'
        exact hnested _ _ _ hc' hd' hcomment
      have hscan := sweep_corresponds hform hS hrun [] ((substituteAll env slots).map .word) [] []
        .nil
      rw [evaluate_succ hc, evaluate_succ hd]
      refine (corresponds_note _).bind fun _ _ _ => (corresponds_note _).bind fun _ _ _ => ?_
      exact hscan.bind fun res res' hres =>
        conclude_corresponds hS (hown c d hc hd) chance name hres

end

/-! ### The handler calls on record -/

/-- A handler call as the trace records it. -/
structure Dispatch where
  name : String
  params : List String
  chance : Chance

namespace Dispatch

/--
What an event does to the commands that are open, innermost first, each with the handler
calls that count in it so far.  The last of them stands for what is outside of all commands.
-/
def step : List (List Dispatch) → Event → List (List Dispatch)
  | opened, .executing _ => [] :: opened
  | inner :: outer :: opened, .dispatching name params chance =>
    (outer ++ inner ++ [⟨name, params, chance⟩]) :: opened
  | _ :: outer :: opened, .abandoned _ => outer :: opened
  | opened, _ => opened

/-- The handler calls of a trace that are not inside an abandoned command, in their order. -/
def surviving (events : List Event) : List Dispatch := (events.foldl step [[]]).headD []

/-- Whether the handler, asked again, asks for a halt. -/
def halts (r : Registry) (d : Dispatch) : Bool :=
  (Replay.handled r d.name d.params d.chance).any Outcome.halt

/-- The row of outcomes halts if and only if one of the calls does. -/
def Accounts (r : Registry) (row : List Outcome) (calls : List Dispatch) : Prop :=
  row.any Outcome.halt = calls.any (halts r)

/-- The calls that count in each open command account for what the stack has collected there. -/
def Tracks (r : Registry) (s : Replay.Stack) (opened : List (List Dispatch)) : Prop :=
  List.Forall₂ (Accounts r) (s.frames.map (·.collected) ++ [s.returned]) opened

theorem Accounts.append {r : Registry} {row more : List Outcome} {calls later : List Dispatch}
    (h : Accounts r row calls) (hmore : Accounts r more later) :
    Accounts r (row ++ more) (calls ++ later) := by
  unfold Accounts at *
  rw [List.any_append, List.any_append, h, hmore]

/-- What is handed to the innermost open command counts there. -/
theorem tracks_give {r : Registry} {s : Replay.Stack} {outer calls : List Dispatch}
    {opened : List (List Dispatch)} (h : Tracks r s (outer :: opened)) {row : List Outcome}
    (hrow : Accounts r row calls) : Tracks r (s.give row) ((outer ++ calls) :: opened) := by
  obtain ⟨frames, returned⟩ := s
  cases frames with
  | nil =>
    obtain ⟨hreturned, hrest⟩ := List.forall₂_cons.mp h
    exact .cons (hreturned.append hrow) hrest
  | cons f fs =>
    obtain ⟨hf, hrest⟩ := List.forall₂_cons.mp h
    exact .cons (hf.append hrow) hrest

/-- A command that is closed has calls of its own and another command or the outside around it. -/
theorem tracks_pop {r : Registry} {s s' : Replay.Stack} {opened : List (List Dispatch)}
    (h : Tracks r s opened) {name : String} {answer : List Outcome → Option (List Outcome)}
    (hpop : s.pop name answer = some s') :
    ∃ t inner outer rest collected row, opened = inner :: outer :: rest ∧
      Tracks r t (outer :: rest) ∧ Accounts r collected inner ∧ answer collected = some row ∧
      s' = t.give row := by
  obtain ⟨frames, returned⟩ := s
  cases frames with
  | nil => cases hpop
  | cons f fs =>
    simp only [Replay.Stack.pop] at hpop
    split at hpop
    · obtain ⟨row, hrow, rfl⟩ := Option.map_eq_some_iff.mp hpop
      cases h with
      | @cons _ inner _ opened' hinner hrest =>
        cases opened' with
        | nil => simp at hrest
        | cons outer rest =>
          exact ⟨⟨fs, returned⟩, inner, outer, rest, _, row, rfl, hrest, hinner, hrow, rfl⟩
    · cases hpop

/-- **One event keeps the calls in step with the stack.** -/
theorem Tracks.step {r : Registry} {s s' : Replay.Stack} {opened : List (List Dispatch)}
    (h : Tracks r s opened) {e : Event} (hstep : Replay.step r s e = some s') :
    Tracks r s' (Dispatch.step opened e) := by
  cases e with
  | executing name =>
    cases hstep
    exact .cons rfl h
  | substituted words =>
    cases hstep
    exact h
  | dispatching name params chance =>
    rw [Replay.step] at hstep
    obtain ⟨t, inner, outer, rest, collected, row, rfl, ht, hinner, hrow, rfl⟩ := tracks_pop h hstep
    obtain ⟨own, hown, rfl⟩ := Option.map_eq_some_iff.mp hrow
    have hcall : Accounts r [own] [⟨name, params, chance⟩] := by
      simp [Accounts, halts, hown]
    rw [Dispatch.step, List.append_assoc]
    exact tracks_give ht (hinner.append hcall)
  | abandoned name =>
    rw [Replay.step] at hstep
    obtain ⟨t, inner, outer, rest, collected, row, rfl, ht, -, hrow, rfl⟩ := tracks_pop h hstep
    cases hrow
    have hnothing : Accounts r [{}] [] := rfl
    have hgive := tracks_give ht hnothing
    rwa [List.append_nil] at hgive

/-- A whole trace keeps the calls in step with the stack. -/
theorem Tracks.run {r : Registry} {events : List Event} :
    ∀ {s s' : Replay.Stack} {opened : List (List Dispatch)}, Tracks r s opened →
      Replay.run r s events = some s' → Tracks r s' (events.foldl Dispatch.step opened) := by
  induction events with
  | nil =>
    intro s s' opened h hrun
    cases hrun
    exact h
  | cons e events ih =>
    intro s s' opened h hrun
    rw [Replay.run_cons, Option.bind_eq_some_iff] at hrun
    obtain ⟨t, hstep, hrest⟩ := hrun
    exact ih (h.step hstep) hrest

/-- The calls that survive in a trace account for the row that it plays. -/
theorem accounts_of_plays {r : Registry} {events : List Event} {row : List Outcome}
    (h : Replay.Plays r events row) : Accounts r row (surviving events) := by
  have hstart : Tracks r {} [[]] := .cons rfl .nil
  have hend := hstart.run (h {})
  rw [surviving]
  generalize events.foldl Dispatch.step [[]] = opened at hend
  cases hend with
  | cons hrow _ => simpa [Replay.Stack.give] using hrow

end Dispatch

/-- **An evaluation halts if its command is unknown or a handler call that counts does.** -/
theorem halt_evaluate {r : Registry} {env : Environment} {nesting : Nat} {chance : Chance}
    {name : String} {slots : List Slot} {o : Outcome}
    (h : (evaluate r env nesting chance name slots).result = .ok o) :
    o.halt = ((r.get? name).isNone ||
      (Dispatch.surviving (evaluate r env nesting chance name slots).events).any
        (Dispatch.halts r)) := by
  cases hc : r.get? name with
  | none =>
    cases nesting with
    | zero => cases h
    | succ n =>
      rw [evaluate, hc] at h
      cases h
      rfl
  | some c =>
    obtain ⟨closing, row, -, hplays, -, rfl, -⟩ := Replay.evaluate_plays nesting hc h
    rw [Outcome.halt_total, Dispatch.accounts_of_plays hplays]
    rfl

/-! ### What matters of an answer -/

namespace Outcome

/-- The outcomes have the same value. -/
def SameValue (a b : Outcome) : Prop := a.value = b.value

/-- Nothing but the halt flag can tell the outcomes apart. -/
def SameButHalt (a b : Outcome) : Prop := a = { b with halt := a.halt }

theorem congruence_sameValue : Congruence SameValue where
  value h := h
  refl _ := rfl
  append _ h := h

theorem congruence_sameButHalt : Congruence SameButHalt where
  value h := by rw [h]
  refl _ := rfl
  append h h' := by
    rw [h, h']
    rfl

end Outcome

namespace Registry

/-- The same commands with other handlers. -/
def withHandlers (r : Registry) (handler : Command → Handler) : Registry :=
  { r with commands := r.commands.map fun c => { c with handler := handler c } }

theorem get?_withHandlers (r : Registry) (handler : Command → Handler) (name : String) :
    (r.withHandlers handler).get? name =
      (r.get? name).map fun c => { c with handler := handler c } := by
  rw [get?, withHandlers, List.find?_map]
  rfl

/-- Other handlers do not change what commands look like. -/
theorem sameForm_withHandlers (r : Registry) (handler : Command → Handler) :
    r.SameForm (r.withHandlers handler) := by
  intro name
  rw [get?_withHandlers]
  cases r.get? name with
  | none => exact .none
  | some c => exact .some ⟨rfl, rfl, rfl, rfl⟩

/-- Commands of one name answer alike if each answers like itself with its other handler. -/
theorem answersLike_withHandlers {S : Outcome → Outcome → Prop} {handler : Command → Handler}
    (h : ∀ (c : Command) chance params,
      Traced.Agree S (c.handler chance params) (handler c chance params)) (r : Registry) :
    r.AnswersLike S (r.withHandlers handler) := by
  intro name c d hc hd
  rw [get?_withHandlers, hc] at hd
  cases hd
  exact h c

end Registry

/--
**Control flow depends on values only.**  Take two registries that know the same names, with
commands that look alike and handlers that give the same value or the same fault on all
parameters.  Evaluations in both have the same trace, abandoned commands included, and end
with the same fault or the same value.  If the handlers differ in nothing but the halt flag,
the logs and the writes are the same too.  Whether a result halts is the same question in
both, put to different handlers: it does if the command is unknown, or if one of the handler
calls on record does that are not inside an abandoned command.
-/
theorem evaluate_values_only {r q : Registry} (hform : r.SameForm q)
    (hvalue : r.AnswersLike Outcome.SameValue q) (env : Environment) (nesting : Nat)
    (chance : Chance) (name : String) (slots : List Slot) :
    (evaluate r env nesting chance name slots).events =
        (evaluate q env nesting chance name slots).events ∧
    (evaluate r env nesting chance name slots).result.map Outcome.value =
        (evaluate q env nesting chance name slots).result.map Outcome.value ∧
    (r.AnswersLike Outcome.SameButHalt q →
      (evaluate r env nesting chance name slots).result.map (fun o => (o.log, o.writes)) =
        (evaluate q env nesting chance name slots).result.map fun o => (o.log, o.writes)) ∧
    ∃ calls, calls = Dispatch.surviving (evaluate r env nesting chance name slots).events ∧
      (∀ o, (evaluate r env nesting chance name slots).result = .ok o →
        o.halt = ((r.get? name).isNone || calls.any (Dispatch.halts r))) ∧
      ∀ o, (evaluate q env nesting chance name slots).result = .ok o →
        o.halt = ((q.get? name).isNone || calls.any (Dispatch.halts q)) := by
  have hsame := evaluate_corresponds hform Outcome.congruence_sameValue
    (fun name c d hc hd _ => hvalue name c d hc hd) env nesting chance name slots (hvalue name)
  refine ⟨hsame.events, hsame.result.map_eq fun _ _ h => h, ?_, _, rfl, ?_, ?_⟩
  · intro hhalt
    have hbut := evaluate_corresponds hform Outcome.congruence_sameButHalt
      (fun name c d hc hd _ => hhalt name c d hc hd) env nesting chance name slots (hhalt name)
    refine hbut.result.map_eq fun a b hab => ?_
    rw [hab]
  · intro o ho
    exact halt_evaluate ho
  · intro o ho
    rw [hsame.events]
    exact halt_evaluate ho

/-- The built-in commands, with handlers that never ask for a halt. -/
def muted : Registry :=
  Builtin.registry.withHandlers fun c chance params =>
    (c.handler chance params).map fun o => { o with halt := false }

/--
The inner `stop` is called and then dropped with the `warn` that a comment abandons.  The
outer one survives, and whether the line halts is up to its handler.
-/
theorem evaluate_values_only_muted :
    Builtin.registry.SameForm muted ∧ Builtin.registry.AnswersLike Outcome.SameButHalt muted ∧
    (evaluate Builtin.registry ∅ 5 (.constant 0) "print"
        (["-stop", "-warn", "a", "..", "-stop", "//"].map .word)).events =
      (evaluate muted ∅ 5 (.constant 0) "print"
        (["-stop", "-warn", "a", "..", "-stop", "//"].map .word)).events ∧
    (evaluate Builtin.registry ∅ 5 (.constant 0) "print"
        (["-stop", "-warn", "a", "..", "-stop", "//"].map .word)).result.map
          (fun o => (o.log, o.writes)) =
      (evaluate muted ∅ 5 (.constant 0) "print"
        (["-stop", "-warn", "a", "..", "-stop", "//"].map .word)).result.map
          (fun o => (o.log, o.writes)) ∧
    (evaluate Builtin.registry ∅ 5 (.constant 0) "print"
        (["-stop", "-warn", "a", "..", "-stop", "//"].map .word)).result =
      .ok { log := [⟨.halted, some "true", 0⟩, ⟨.output, some "true", 0⟩], halt := true } ∧
    (evaluate muted ∅ 5 (.constant 0) "print"
        (["-stop", "-warn", "a", "..", "-stop", "//"].map .word)).result =
      .ok { log := [⟨.halted, some "true", 0⟩, ⟨.output, some "true", 0⟩] } ∧
    ∃ calls : List Dispatch, calls.map Dispatch.name = ["stop", "print"] ∧
      true = calls.any (Dispatch.halts Builtin.registry) ∧
      false = calls.any (Dispatch.halts muted) := by
  have hform : Builtin.registry.SameForm muted := Registry.sameForm_withHandlers _ _
  have hvalue : Builtin.registry.AnswersLike Outcome.SameValue muted := by
    refine Registry.answersLike_withHandlers (fun c chance params => ?_) _
    refine Traced.agree_map (fun o => ?_) _
    rfl
  have hhalt : Builtin.registry.AnswersLike Outcome.SameButHalt muted := by
    refine Registry.answersLike_withHandlers (fun c chance params => ?_) _
    refine Traced.agree_map (fun o => ?_) _
    rfl
  have hloud : (evaluate Builtin.registry ∅ 5 (.constant 0) "print"
      (["-stop", "-warn", "a", "..", "-stop", "//"].map .word)).result =
        .ok { log := [⟨.halted, some "true", 0⟩, ⟨.output, some "true", 0⟩], halt := true } := by
    decide +kernel
  have hmuted : (evaluate muted ∅ 5 (.constant 0) "print"
      (["-stop", "-warn", "a", "..", "-stop", "//"].map .word)).result =
        .ok { log := [⟨.halted, some "true", 0⟩, ⟨.output, some "true", 0⟩] } := by
    decide +kernel
  obtain ⟨hevents, -, hlog, calls, hcalls, hr, hq⟩ := evaluate_values_only hform hvalue ∅ 5
    (.constant 0) "print" (["-stop", "-warn", "a", "..", "-stop", "//"].map .word)
  refine ⟨hform, hhalt, hevents, hlog hhalt, hloud, hmuted, calls, ?_, hr _ hloud, hq _ hmuted⟩
  rw [hcalls]
  decide +kernel

/-- A command that nobody has defined halts although no handler is called. -/
theorem halt_evaluate_shout :
    (evaluate Builtin.registry ∅ 1 (.constant 0) "shout" []).result =
      .ok (commandNotFound "shout") ∧
    (commandNotFound "shout").halt ≠
      (Dispatch.surviving (evaluate Builtin.registry ∅ 1 (.constant 0) "shout" []).events).any
        (Dispatch.halts Builtin.registry) := by
  decide +kernel

end Eel
