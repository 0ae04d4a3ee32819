/-
A scan rewrites its words in place.

Forget the gaps, and what a scan does to its words is a row of rewrites.  Each of them
takes a stretch of neighbouring words out and puts a single one in: the two operands with
their operator between them, or a call with the words it takes.  What goes to the nested
evaluation is exactly that stretch, less the operator or the call itself, and what comes
in is the value.  All other words stay where they are.

`Redex` says which stretches can be rewritten.  `Asks.redex` is the step: what a scan asks
for on a tidy tape is a redex of its live words.  `rewrites_of_reaches` is the run, and
`evaluate_rewrites` says it of evaluations: their trace holds the nested evaluations in the
order of the rewrites, and the handler gets the words that are left.
-/
import Eel.Proofs.Gapless
import Eel.Proofs.Steps

namespace Eel

/--
What a call does with the words behind it: it takes `xs` and leaves `after`.  That is as
many as its arity says, and all of them if they are fewer or if it has no arity.
-/
def Command.Takes (c : Command) (xs after : List String) : Prop :=
  match c.arity with
  | none => after = []
  | some n => xs.length = n ∨ xs.length < n ∧ after = []

/--
The words hold a stretch that an evaluation of the command on the arguments takes the
place of.  The last argument puts the value there.
-/
inductive Redex (r : Registry) :
    List String → Command → List String → (String → List String) → Prop
  | operate (before after : List String) (a b : String) {c : Command}
      (hc : r.operator? c.name = some c) :
      Redex r (before ++ [a, c.name, b] ++ after) c [a, b] fun v => before ++ [v] ++ after
  | call (before xs after : List String) {c : Command} (hc : r.plain? c.name = some c)
      (htakes : c.Takes xs after) :
      Redex r (before ++ ["-" ++ c.name] ++ xs ++ after) c xs fun v => before ++ [v] ++ after

/-- How far a rewriting of words has come. -/
structure Rewriting where
  words : List String
  /-- The outcomes of the evaluations so far, oldest first. -/
  parts : List Outcome
  /-- The events of these evaluations. -/
  events : List Event

/-- The evaluation of a redex, with its value put in the place of the redex. -/
inductive Rewrite (r : Registry) (run : Nat → Command → List Slot → Traced Outcome) :
    Rewriting → Rewriting → Prop
  | mk {words : List String} {c : Command} {args : List String} {after : String → List String}
      {parts : List Outcome} {part : Outcome} (events : List Event)
      (hredex : Redex r words c args after)
      (hrun : (run parts.length c (args.map .word)).result = .ok part) :
      Rewrite r run ⟨words, parts, events⟩
        ⟨after part.value, parts ++ [part],
          events ++ (run parts.length c (args.map .word)).events⟩

/-- Any number of rewrites, one after the other. -/
def Rewrites (r : Registry) (run : Nat → Command → List Slot → Traced Outcome) :
    Rewriting → Rewriting → Prop :=
  Relation.ReflTransGen (Rewrite r run)

/-! ### The words of operators and calls -/

namespace Registry

variable {r : Registry} {w : String} {c : Command}

theorem operator?_name (h : r.operator? w = some c) : c.name = w ∧ r.operator? c.name = some c := by
  have hname := name_of_get? (get?_of_operator? h)
  exact ⟨hname, hname ▸ h⟩

/-- A word that is a call is a dash with the name of a plain command behind it. -/
theorem called?_name (h : r.called? w = some c) :
    w = "-" ++ c.name ∧ r.plain? c.name = some c := by
  unfold called? at h
  split at h
  · rename_i name hword
    have hname := name_of_get? (get?_of_plain? h)
    refine ⟨?_, hname ▸ h⟩
    rw [hname, ← String.toList_inj, hword]
    simp
  · cases h

end Registry

/-- What a call takes of its words when its arity is not negative. -/
theorem Command.takes_share {c : Command} (hc : ∀ a ∈ c.arity, 0 ≤ a) (ws : List String) :
    c.Takes (ws.take (c.share ws.length)) (ws.drop (c.share ws.length)) := by
  unfold Takes share
  cases harity : c.arity with
  | none => simp
  | some n =>
    have hn := hc n harity
    simp only [List.length_take, List.drop_eq_nil_iff]
    omega

namespace Reduction

variable {r : Registry} {run : Nat → Command → List Slot → Traced Outcome}

/-! ### A step of the scan is a rewrite, or the words stay as they are -/

/-- **What a scan asks for on a tidy tape is a redex of its live words.** -/
theorem Asks.redex (hr : r.CountsForward) {t : Tape} {c : Command} {args : List Slot}
    {next : String → Tape} (ht : Tidy t) (h : Asks r t c args next) :
    ∃ xs after, args = xs.map .word ∧ Redex r t.live c xs after ∧
      ∀ value, (next value).live = after value := by
  have hknows := h.knows
  cases h with
  | @operate passed w behind c right tail hmove =>
    obtain ⟨op, rfl, hop⟩ := Registry.move_eq_operate hmove
    obtain ⟨front, b, words, rfl, rfl, rfl⟩ := ht.exists_of_operate hmove
    obtain ⟨rfl, hc⟩ := Registry.operator?_name (Registry.operator?_of_classify hop)
    have hlive : Tape.live ⟨(front.map .word).reverse,
        .word w :: .word c.name :: .word b :: words.map .word⟩
        = front ++ [w, c.name, b] ++ words := by simp [Tape.live, Slot.live]
    rw [hlive]
    refine ⟨[w, b], _, rfl, .operate front words w b hc, fun value => ?_⟩
    simp [Tape.live, Slot.live]
  | @call passed w behind c hmove =>
    obtain ⟨front, gaps, words, rfl, rfl⟩ := ht.exists_of_word
    obtain ⟨rfl, hc⟩ := Registry.called?_name
      (Registry.called?_of_classify (Registry.classify_of_move_call hmove))
    -- The call sees the words behind the gaps as if there were none.
    have hdense : Slot.dense (List.replicate gaps .vacant ++ words.map .word)
        = words.map .word := by simp [Slot.dense]
    have hportion := Gapless.portion_map_word (hr.arity hknows)
      (front.map Slot.word).reverse.length words
    have hlive : Tape.live ⟨(front.map .word).reverse,
        .word ("-" ++ c.name) :: (List.replicate gaps .vacant ++ words.map .word)⟩
        = front ++ ["-" ++ c.name] ++ words.take (c.share words.length)
          ++ words.drop (c.share words.length) := by
      simp [Tape.live, Slot.live]
    rw [hdense, hportion, hlive]
    refine ⟨_, _, rfl, .call front _ _ hc (c.takes_share (hr.arity hknows) words),
      fun value => ?_⟩
    simp only [Tape.live, Slot.live, live_afterCall, Slot.live_map_word, Slot.live_reverse]
    simp

/-- What a stage looks like without its gaps. -/
def Stage.rewriting (s : Stage) : Rewriting := ⟨s.tape.live, s.parts, s.events⟩

theorem rewrites_of_step (hr : r.CountsForward) {s s' : Stage} (hs : Tidy s.tape)
    (h : Step r run s s') : Rewrites r run s.rewriting s'.rewriting := by
  cases h with
  | quiet parts events hquiet =>
    simp only [Stage.rewriting, hquiet.live_eq]
    exact .refl
  | asked events hasks hrun =>
    obtain ⟨xs, after, rfl, hredex, hnext⟩ := hasks.redex hr hs
    simp only [Stage.rewriting, hnext]
    exact .single (.mk events hredex hrun)

/-- **Every stage of a scan comes from its first words by rewriting.** -/
theorem rewrites_of_reaches (hr : r.CountsForward) {words : List String} {s : Stage}
    (h : Reaches r run (.start words) s) : Rewrites r run ⟨words, [], []⟩ s.rewriting := by
  induction h with
  | refl =>
    have hstart : (Stage.start words).rewriting = ⟨words, [], []⟩ := by
      simp [Stage.rewriting, Stage.start]
    rw [hstart]
    exact .refl
  | tail hreaches hstep ih => exact ih.trans (rewrites_of_step hr (tidy_of_reaches hreaches) hstep)

/-- A scan ends with words that its first words were rewritten to. -/
theorem live_of_finish {t : Tape} {words : List String} (h : Ends r t (some words)) :
    t.live = words := by
  cases h with
  | finish passed => simp [Tape.live, Slot.live]

end Reduction

open Reduction in
/--
**An evaluation rewrites its words.**  Wherever its scan stands, the live words have come
from those after substitution by rewriting, and what the scan asks for is a redex of them.
The trace is that of the nested evaluations in the order of the rewrites, and it ends in
one of three ways: the command is abandoned, or its handler gets the words that are left
and its outcome is composed with those of the rewrites, or the evaluation of a redex has a
fault.
-/
theorem evaluate_rewrites {r : Registry} (hr : r.CountsForward) {name : String} {c : Command}
    (hc : r.get? name = some c) (env : Environment) (nesting : Nat) (chance : Chance)
    (slots : List Slot) :
    (∀ s, Reaches r (nested r env nesting chance) (.start (substituteAll env slots)) s →
      Rewrites r (nested r env nesting chance) ⟨substituteAll env slots, [], []⟩
          ⟨s.tape.live, s.parts, s.events⟩ ∧
        ∀ d args next, Asks r s.tape d args next →
          ∃ xs after, args = xs.map .word ∧ Redex r s.tape.live d xs after ∧
            ∀ value, (next value).live = after value) ∧
    ∃ words parts events,
      Rewrites r (nested r env nesting chance) ⟨substituteAll env slots, [], []⟩
        ⟨words, parts, events⟩ ∧
      (evaluate r env (nesting + 1) chance name slots =
          ⟨.executing name :: .substituted (substituteAll env slots) ::
            (events ++ [.abandoned name]), .ok {}⟩ ∨
        evaluate r env (nesting + 1) chance name slots =
          ⟨.executing name :: .substituted (substituteAll env slots) ::
            (events ++ [.dispatching name words chance]),
            (c.handler chance words).map (.compose parts)⟩ ∨
        ∃ d xs after fault, Redex r words d xs after ∧
          (nested r env nesting chance parts.length d (xs.map .word)).result = .error fault ∧
          evaluate r env (nesting + 1) chance name slots =
            ⟨.executing name :: .substituted (substituteAll env slots) ::
              (events ++ (nested r env nesting chance parts.length d (xs.map .word)).events),
              .error fault⟩) := by
  refine ⟨fun s hs => ⟨rewrites_of_reaches hr hs, fun d args next hasks =>
    hasks.redex hr (tidy_of_reaches hs)⟩, ?_⟩
  obtain ⟨s, hreaches, hstops⟩ := scanned_stops r env nesting chance (substituteAll env slots)
  have hrewrites := rewrites_of_reaches hr hreaches
  generalize hscan : scanned r env nesting chance (substituteAll env slots) = left at hstops
  cases hstops with
  | @ends t left parts events hends =>
    have hevaluate := evaluate_of_scanned_ok hc hscan
    refine ⟨t.live, parts, events, hrewrites, ?_⟩
    cases left with
    | none => exact .inl hevaluate
    | some words =>
      right; left
      rw [hevaluate, live_of_finish hends, Option.map_some, conclude_some]
  | @fault t d args next parts fault events hasks hrun =>
    have hevaluate := evaluate_of_scanned_error hc hscan
    obtain ⟨xs, after, rfl, hredex, -⟩ := hasks.redex hr (tidy_of_reaches hreaches)
    exact ⟨t.live, parts, events, hrewrites,
      .inr (.inr ⟨d, xs, after, fault, hredex, hrun, hevaluate⟩)⟩

/--
A call that is produced by an operator takes its words behind the gaps, and one with two
parameters leaves the third word where it is.
-/
theorem evaluate_rewrites_join :
    Builtin.registry.CountsForward ∧
    Builtin.registry.get? "print" = some (Builtin.logging "print" .output false) ∧
    ∃ parts events,
      Rewrites Builtin.registry (nested Builtin.registry .initial 2 (.constant 0))
        ⟨["a", "-", "..", "join", "b", "c", "d"], [], []⟩ ⟨["a", "bc", "d"], parts, events⟩ ∧
      evaluate Builtin.registry .initial 3 (.constant 0) "print"
          (["a", "-", "..", "join", "b", "c", "d"].map .word) =
        ⟨.executing "print" :: .substituted ["a", "-", "..", "join", "b", "c", "d"] ::
          (events ++ [.dispatching "print" ["a", "bc", "d"] (.constant 0)]),
          .ok (.compose parts (.say .output "a bc d" false))⟩ := by
  have hc : Builtin.registry.get? "print" = some (Builtin.logging "print" .output false) := rfl
  have hlast : ((evaluate Builtin.registry .initial 3 (.constant 0) "print"
      (["a", "-", "..", "join", "b", "c", "d"].map .word)).events.getLast?.map fun
        | .dispatching _ params _ => params
        | _ => []) = some ["a", "bc", "d"] := by decide +kernel
  have hwords : substituteAll .initial (["a", "-", "..", "join", "b", "c", "d"].map .word)
      = ["a", "-", "..", "join", "b", "c", "d"] := by decide +kernel
  have hok : (evaluate Builtin.registry .initial 3 (.constant 0) "print"
      (["a", "-", "..", "join", "b", "c", "d"].map .word)).result.isOk = true := by decide +kernel
  obtain ⟨-, words, parts, events, hrewrites, hend⟩ := evaluate_rewrites
    Gapless.countsForward_builtin hc .initial 2 (.constant 0)
    (["a", "-", "..", "join", "b", "c", "d"].map .word)
  refine ⟨Gapless.countsForward_builtin, hc, parts, events, ?_⟩
  rw [hwords] at hrewrites hend
  rcases hend with hend | hend | ⟨d, xs, after, fault, -, -, hend⟩
  · rw [hend] at hlast
    simp [List.getLast?_cons] at hlast
  · rw [hend] at hlast
    obtain rfl : words = ["a", "bc", "d"] := by simpa [List.getLast?_cons] using hlast
    exact ⟨hrewrites, hend⟩
  · rw [hend] at hok
    cases hok

end Eel
