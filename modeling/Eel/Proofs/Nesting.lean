/-
How deep evaluations can be nested.

`evaluate` is told how many evaluations may be open at once.  This file asks how many are
ever needed, whatever the commands are and whatever their handlers answer.  An evaluation
nested in another is handed fewer words than the other has, because the operator or the
call that asks for it stays behind and values only ever take the place of words.  So with
`n` words no chain of nested evaluations is longer than `n + 1`, and a limit that allows as
many is never felt.

To say what an evaluation without a limit is, the limit is taken out of its equation:
`evaluateWith` makes one evaluation and leaves those nested in it to someone else.  An
evaluator that leaves them to itself has no limit.  `evaluate_nesting` says that there is
exactly one of these, and that `evaluate` agrees with it as soon as the limit is above the
number of words.  Every fault is then one of a handler, and none is due to the limit.
-/
import Mathlib.Data.List.Chain
import Eel.Builtin.Catalogue
import Eel.Proofs.Steps

namespace Eel

open Reduction

/-- A way to evaluate a command, given by its name, on the words in some slots. -/
abbrev Evaluator := Chance → String → List Slot → Traced Outcome

/-- How a command leaves the commands nested in it to an evaluator. -/
def nestedBy (E : Evaluator) (chance : Chance) : Nat → Command → List Slot → Traced Outcome :=
  fun k c args => E (chance.child k) c.name args

/-- Makes one evaluation and leaves those nested in it to `E`. -/
def evaluateWith (r : Registry) (env : Environment) (E : Evaluator) : Evaluator :=
  fun chance name slots =>
    match r.get? name with
    | none => pure (commandNotFound name)
    | some c => do
      .note (.executing name)
      .note (.substituted (substituteAll env slots))
      let res ← sweep r (nestedBy E chance) [] ((substituteAll env slots).map .word) []
      conclude chance name c res

theorem evaluate_eq_evaluateWith (r : Registry) (env : Environment) (nesting : Nat) :
    evaluate r env (nesting + 1) = evaluateWith r env (evaluate r env nesting) := by
  funext chance name slots
  cases hc : r.get? name with
  | none => rw [evaluate, evaluateWith, hc]
  | some c =>
    rw [evaluate_succ hc, evaluateWith, hc]
    rfl

/-- A command to be evaluated. -/
structure Job where
  chance : Chance
  name : String
  slots : List Slot

def Job.size (j : Job) : Nat := (Slot.live j.slots).length

/-- In the course of the first job, `E` is asked to do the second one. -/
inductive Nests (r : Registry) (env : Environment) (E : Evaluator) : Job → Job → Prop
  | mk {chance : Chance} {name : String} {slots : List Slot} {c d : Command} {s : Stage}
      {args : List Slot} {next : String → Tape} (hc : r.get? name = some c)
      (hreaches : Reaches r (nestedBy E chance) (.start (substituteAll env slots)) s)
      (hasks : Asks r s.tape d args next) :
      Nests r env E ⟨chance, name, slots⟩ ⟨chance.child s.parts.length, d.name, args⟩

/-! ### Nested evaluations have fewer words -/

section

variable {r : Registry} {env : Environment} {E F : Evaluator}

theorem Nests.size_lt {j k : Job} (h : Nests r env E j k) : k.size < j.size := by
  cases h with
  | mk hc hreaches hasks =>
    have hargs := hasks.length_lt.1
    have hwords := hreaches.length_le
    simp only [Stage.start, Tape.live_ofWords, substituteAll, List.length_map] at hwords
    exact Nat.lt_of_lt_of_le hargs hwords

/-- **A chain of nested evaluations has at most one more member than its first has words.** -/
theorem length_le_of_isChain {chain : List Job} :
    ∀ {j : Job}, List.IsChain (Nests r env E) (j :: chain) → (j :: chain).length ≤ j.size + 1 := by
  induction chain with
  | nil =>
    intro j _
    exact Nat.succ_le_succ (Nat.zero_le _)
  | cons k chain ih =>
    intro j h
    obtain ⟨hnests, hrest⟩ := List.isChain_cons_cons.mp h
    have hsize := hnests.size_lt
    have hlength := ih hrest
    simp only [List.length_cons] at hlength ⊢
    omega

end

/-! ### Only what is asked for matters -/

section

variable {r : Registry} {run run' : Nat → Command → List Slot → Traced Outcome} {s s' : Stage}

/-- Two ways to evaluate agree on everything that a scan asks for from a stage on. -/
def AgreeFrom (r : Registry) (run run' : Nat → Command → List Slot → Traced Outcome)
    (s : Stage) : Prop :=
  ∀ s' c args next, Reaches r run s s' → Asks r s'.tape c args next →
    run s'.parts.length c args = run' s'.parts.length c args

theorem AgreeFrom.reaches (h : AgreeFrom r run run' s) (hreaches : Reaches r run s s') :
    Reaches r run' s s' := by
  induction hreaches with
  | refl => exact .refl
  | tail hbefore hstep ih =>
    refine ih.tail ?_
    cases hstep with
    | quiet parts events hquiet => exact .quiet parts events hquiet
    | asked events hasks hrun =>
      have hsame := h _ _ _ _ hbefore hasks
      simp only at hsame
      rw [hsame] at hrun ⊢
      exact .asked events hasks hrun

theorem AgreeFrom.stops (h : AgreeFrom r run run' s) (hreaches : Reaches r run s s')
    {left : Traced (Option (List String × List Outcome))} (hstops : Stops r run s' left) :
    Stops r run' s' left := by
  cases hstops with
  | ends parts events hends => exact .ends parts events hends
  | fault events hasks hrun =>
    have hsame := h _ _ _ _ hreaches hasks
    simp only at hsame
    rw [hsame] at hrun ⊢
    exact .fault events hasks hrun

theorem AgreeFrom.proceed_eq (h : AgreeFrom r run run' s) :
    s.proceed r run = s.proceed r run' := by
  obtain ⟨s', hreaches, hstops⟩ := reaches_stop r run s
  rw [proceed_of_reaches (h.reaches hreaches), proceed_of_stops (h.stops hreaches hstops)]

end

section

variable {r : Registry} {env : Environment} {E F : Evaluator} {chance : Chance} {name : String}
variable {slots : List Slot}

/-- Two evaluators that agree on fewer words can be exchanged for what is nested. -/
theorem evaluateWith_congr
    (h : ∀ chance name args, (Slot.live args).length < (Slot.live slots).length →
      E chance name args = F chance name args) :
    evaluateWith r env E chance name slots = evaluateWith r env F chance name slots := by
  cases hc : r.get? name with
  | none => simp only [evaluateWith, hc]
  | some c =>
    have hagree : AgreeFrom r (nestedBy E chance) (nestedBy F chance)
        (.start (substituteAll env slots)) := by
      intro s d args next hreaches hasks
      have hnests : Nests r env E ⟨chance, name, slots⟩ _ := .mk hc hreaches hasks
      exact h _ _ _ hnests.size_lt
    have hscan := hagree.proceed_eq
    rw [proceed_start, proceed_start] at hscan
    simp only [evaluateWith, hc, hscan]

/-! ### Limits above the number of words -/

/-- Above the number of words one limit is as good as another. -/
theorem evaluate_eq_of_lt : ∀ {limit limit' : Nat} {chance : Chance} {name : String}
    {slots : List Slot}, (Slot.live slots).length < limit → (Slot.live slots).length < limit' →
    evaluate r env limit chance name slots = evaluate r env limit' chance name slots := by
  intro limit
  induction limit with
  | zero =>
    intro limit' chance name slots h _
    exact absurd h (Nat.not_lt_zero _)
  | succ n ih =>
    intro limit' chance name slots h h'
    cases limit' with
    | zero => exact absurd h' (Nat.not_lt_zero _)
    | succ n' =>
      rw [evaluate_eq_evaluateWith, evaluate_eq_evaluateWith]
      -- What is nested has fewer words, so both limits can come down by one.
      refine evaluateWith_congr fun chance name args hargs => ih ?_ ?_
      · omega
      · omega

/-- An evaluation whose limit is just above the number of its words. -/
def evaluateFreely (r : Registry) (env : Environment) : Evaluator :=
  fun chance name slots => evaluate r env ((Slot.live slots).length + 1) chance name slots

theorem evaluateFreely_eq (r : Registry) (env : Environment) :
    evaluateFreely r env = evaluateWith r env (evaluateFreely r env) := by
  funext chance name slots
  rw [evaluateFreely, evaluate_eq_evaluateWith]
  refine evaluateWith_congr fun chance name args hargs => ?_
  exact evaluate_eq_of_lt hargs (Nat.lt_succ_self _)

/-- There is at most one evaluator without a limit. -/
theorem evaluator_unique (hE : E = evaluateWith r env E) (hF : F = evaluateWith r env F) :
    E = F := by
  -- The induction is on a bound for the number of words.
  have hsame : ∀ (n : Nat) (chance : Chance) (name : String) (slots : List Slot),
      (Slot.live slots).length < n → E chance name slots = F chance name slots := by
    intro n
    induction n with
    | zero =>
      intro chance name slots h
      exact absurd h (Nat.not_lt_zero _)
    | succ n ih =>
      intro chance name slots h
      rw [hE, hF]
      exact evaluateWith_congr fun chance name args hargs => ih chance name args (by omega)
  funext chance name slots
  exact hsame _ chance name slots (Nat.lt_succ_self _)

/-! ### Where faults come from -/

/-- The last event is the dispatch of a handler that has the fault. -/
def BlamesHandler (r : Registry) (events : List Event) (fault : Fault) : Prop :=
  ∃ before c params chance, r.Knows c ∧
    events = before ++ [.dispatching c.name params chance] ∧
    c.handler chance params = .error fault

theorem BlamesHandler.append {events : List Event} {fault : Fault}
    (h : BlamesHandler r events fault) (front : List Event) :
    BlamesHandler r (front ++ events) fault := by
  obtain ⟨before, c, params, chance, hc, rfl, hfault⟩ := h
  exact ⟨front ++ before, c, params, chance, hc, by simp, hfault⟩

theorem conclude_blames {c : Command} (hc : r.get? name = some c)
    {res : Option (List String × List Outcome)} {fault : Fault}
    (h : (conclude chance name c res).result = .error fault) :
    BlamesHandler r (conclude chance name c res).events fault := by
  cases res with
  | none => cases h
  | some found =>
    obtain ⟨params, parts⟩ := found
    rw [conclude_some] at h ⊢
    refine ⟨[], c, params, chance, Registry.knows_of_get? hc, ?_, ?_⟩
    · rw [Registry.name_of_get? hc]
      rfl
    · cases hhandler : c.handler chance params with
      | error e =>
        rw [hhandler] at h
        cases h
        rfl
      | ok own =>
        rw [hhandler] at h
        cases h

/-- **A limit above the number of words adds no fault to those of the handlers.** -/
theorem evaluate_blames : ∀ {limit : Nat} {chance : Chance} {name : String} {slots : List Slot}
    {fault : Fault}, (Slot.live slots).length < limit →
    (evaluate r env limit chance name slots).result = .error fault →
    BlamesHandler r (evaluate r env limit chance name slots).events fault := by
  intro limit
  induction limit with
  | zero =>
    intro chance name slots fault h _
    exact absurd h (Nat.not_lt_zero _)
  | succ n ih =>
    intro chance name slots fault h hfault
    cases hc : r.get? name with
    | none =>
      rw [evaluate, hc] at hfault
      cases hfault
    | some c =>
      obtain ⟨s, hreaches, hstops⟩ := scanned_stops r env n chance (substituteAll env slots)
      generalize hscan : scanned r env n chance (substituteAll env slots) = left at hstops
      cases hstops with
      | ends parts events hends =>
        rw [evaluate_of_scanned_ok hc hscan] at hfault ⊢
        exact (conclude_blames hc hfault).append (_ :: _ :: events)
      | @fault t d args next parts fault' events hasks hrun =>
        rw [evaluate_of_scanned_error hc hscan] at hfault ⊢
        cases hfault
        -- The fault is that of a nested evaluation, which also has room for its words.
        have hnests : Nests r env (evaluate r env n) ⟨chance, name, slots⟩ _ :=
          .mk hc hreaches hasks
        have hfewer : (Slot.live args).length < (Slot.live slots).length := hnests.size_lt
        have hblames := ih (show (Slot.live args).length < n by omega) hrun
        exact hblames.append (_ :: _ :: events)

end

/--
**Evaluations end, and they are nested no deeper than they have words.**  No scan can go on
for ever.  There is exactly one evaluator that puts no limit on what is nested.  With it, no
chain of nested evaluations is longer than the number of words of the first and one more,
and under any limit that allows as many the evaluation is the same, trace and outcome or
fault; if it is a fault, some handler that was dispatched last has given it.
-/
theorem evaluate_nesting (r : Registry) (env : Environment) :
    (∀ run, WellFounded fun s' s : Stage => Step r run s s') ∧
    ∃ E : Evaluator, (∀ F : Evaluator, F = evaluateWith r env F ↔ F = E) ∧
      ∀ (chance : Chance) (name : String) (slots : List Slot),
        (∀ chain, List.IsChain (Nests r env E) (⟨chance, name, slots⟩ :: chain) →
          (Job.mk chance name slots :: chain).length ≤ (Slot.live slots).length + 1) ∧
        ∀ limit, (Slot.live slots).length + 1 ≤ limit →
          evaluate r env limit chance name slots = E chance name slots ∧
          ∀ fault, (evaluate r env limit chance name slots).result = .error fault →
            ∃ before c params chance', r.get? c.name = some c ∧
              (evaluate r env limit chance name slots).events =
                before ++ [.dispatching c.name params chance'] ∧
              c.handler chance' params = .error fault := by
  refine ⟨fun run => step_wellFounded r run, evaluateFreely r env, ?_, ?_⟩
  · intro F
    refine ⟨fun hF => evaluator_unique hF (evaluateFreely_eq r env), ?_⟩
    rintro rfl
    exact evaluateFreely_eq r env
  · intro chance name slots
    refine ⟨fun chain hchain => length_le_of_isChain hchain, fun limit hlimit => ⟨?_, ?_⟩⟩
    · exact evaluate_eq_of_lt hlimit (Nat.lt_succ_self _)
    · intro fault hfault
      exact evaluate_blames hlimit hfault

/--
Two words can need three evaluations: a limit of two is too low, and from three on they
all give the same.
-/
theorem evaluate_nesting_print :
    (evaluate Builtin.registry ∅ 2 (.constant 0) "print" (["-print", "-print"].map .word)).result =
      .error .nestingTooDeep ∧
    ∀ limit, 2 + 1 ≤ limit →
      (evaluate Builtin.registry ∅ limit (.constant 0) "print"
          (["-print", "-print"].map .word)).result =
        .ok { log := [⟨.output, some "", 0⟩, ⟨.output, some "true", 0⟩,
          ⟨.output, some "true", 0⟩] } := by
  refine ⟨by decide +kernel, fun limit hlimit => ?_⟩
  obtain ⟨-, E, -, hE⟩ := evaluate_nesting Builtin.registry ∅
  have hwords := (hE (.constant 0) "print" (["-print", "-print"].map .word)).2
  rw [(hwords limit hlimit).1, ← (hwords 3 (by decide)).1]
  decide +kernel

end Eel
