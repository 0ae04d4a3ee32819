/-
The scan as a machine that takes one step after the other.

`Reduction.sweep` runs to its end in one go.  What there is to say about it often concerns
the way there: which evaluations it asks for, and what the words look like when it does.
So the scan is taken apart into steps.  A tape holds the slots around the scan, a stage also
what has been gathered so far.  A step either moves over the tape without evaluating
anything, or it asks for one evaluation and goes on with its value.

`reaches_stop` ties the steps to the scan: from any stage, steps lead to one where the
scan stops, and what it leaves there is what `sweep` returns.  Every step lowers the
effort that is still ahead, so there is no way to go on for ever.

On a tape that started without gaps, the gaps are always in one row, at the scan or right
behind the word there.  `Tidy` is that invariant.  It is why an operator never finds
a gap where its right operand should be.

The steps also show what evaluations hand on.  A stage holds nothing but words that were there
from the start, values, and outcomes of nested evaluations.  So by `evaluate_endsIn` the
outcomes of evaluations have every property that handlers give to theirs and that composition
does not lose, and handlers may rely on what they hand on to each other.
-/
import Mathlib.Logic.Relation
import Eel.Proofs.Scan

namespace Eel

namespace Reduction

/-- The slots around a scan. -/
structure Tape where
  /-- The slots to the left, nearest first. -/
  passed : List Slot
  /-- The slots from the position of the scan on. -/
  rest : List Slot

namespace Tape

/-- A tape at its left end, with words and no gaps on it. -/
def ofWords (words : List String) : Tape := ⟨[], words.map .word⟩

/-- The words on the tape that have not been used up, from left to right. -/
def live (t : Tape) : List String := (Slot.live t.passed).reverse ++ Slot.live t.rest

@[simp] theorem live_ofWords (words : List String) : (ofWords words).live = words := by
  simp [ofWords, live, Slot.live]

/-- The effort still ahead of a scan of the tape. -/
def effort (t : Tape) : Nat := Reduction.effort t.passed t.rest

end Tape

/-! ### What a scan can do next -/

/-- The scan moves on without evaluating anything. -/
inductive Quiet (r : Registry) : Tape → Tape → Prop
  | closeUp (passed more : List Slot) :
      Quiet r ⟨passed, .vacant :: more⟩ ⟨[], Reduction.closeUp passed more⟩
  | advance (passed : List Slot) {w : String} {behind : List Slot}
      (hmove : r.move w behind = .advance) :
      Quiet r ⟨passed, .word w :: behind⟩ ⟨.word w :: passed, behind⟩

/--
The scan asks for the evaluation of a command on some slots.  The last argument is the
tape that it goes on with, once there is a value.
-/
inductive Asks (r : Registry) : Tape → Command → List Slot → (String → Tape) → Prop
  | operate (passed : List Slot) {w : String} {behind : List Slot} {c : Command} {right : Slot}
      {tail : List Slot} (hmove : r.move w behind = .operate c right tail) :
      Asks r ⟨passed, .word w :: behind⟩ c [.word w, right]
        fun value => ⟨passed, .word value :: .vacant :: .vacant :: tail⟩
  | call (passed : List Slot) {w : String} {behind : List Slot} {c : Command}
      (hmove : r.move w behind = .call c) :
      Asks r ⟨passed, .word w :: behind⟩ c (c.portion passed.length (Slot.dense behind)).1
        fun value => ⟨.word value :: passed, afterCall (Slot.dense behind)
          (c.portion passed.length (Slot.dense behind)).2⟩

/-- The scan is over, with the words that are left or with none if the command is abandoned. -/
inductive Ends (r : Registry) : Tape → Option (List String) → Prop
  | finish (passed : List Slot) : Ends r ⟨passed, []⟩ (some (Slot.live passed).reverse)
  | abandon (passed : List Slot) {w : String} {behind : List Slot}
      (hmove : r.move w behind = .abandon) : Ends r ⟨passed, .word w :: behind⟩ none

theorem Asks.knows {r : Registry} {t : Tape} {c : Command} {args : List Slot}
    {next : String → Tape} (h : Asks r t c args next) : r.Knows c := by
  cases h with
  | operate passed hmove => exact Registry.knows_of_move_operate hmove
  | call passed hmove => exact Registry.knows_of_move_call hmove

/-! ### Steps -/

/-- Where a scan stands. -/
structure Stage where
  tape : Tape
  /-- The outcomes of the evaluations so far, oldest first. -/
  parts : List Outcome
  /-- The events of these evaluations. -/
  events : List Event

/-- The first stage of the scan of some words. -/
def Stage.start (words : List String) : Stage := ⟨.ofWords words, [], []⟩

/-- One step of a scan whose evaluations are made by `run`. -/
inductive Step (r : Registry) (run : Nat → Command → List Slot → Traced Outcome) :
    Stage → Stage → Prop
  | quiet {t u : Tape} (parts : List Outcome) (events : List Event) (hquiet : Quiet r t u) :
      Step r run ⟨t, parts, events⟩ ⟨u, parts, events⟩
  | asked {t : Tape} {c : Command} {args : List Slot} {next : String → Tape}
      {parts : List Outcome} {part : Outcome} (events : List Event) (hasks : Asks r t c args next)
      (hrun : (run parts.length c args).result = .ok part) :
      Step r run ⟨t, parts, events⟩
        ⟨next part.value, parts ++ [part], events ++ (run parts.length c args).events⟩

/-- The stages that a scan comes to. -/
def Reaches (r : Registry) (run : Nat → Command → List Slot → Traced Outcome) :
    Stage → Stage → Prop :=
  Relation.ReflTransGen (Step r run)

/-- A scan stops where it is over or where an evaluation has a fault; this is what it leaves. -/
inductive Stops (r : Registry) (run : Nat → Command → List Slot → Traced Outcome) :
    Stage → Traced (Option (List String × List Outcome)) → Prop
  | ends {t : Tape} {left : Option (List String)} (parts : List Outcome) (events : List Event)
      (hends : Ends r t left) :
      Stops r run ⟨t, parts, events⟩ ⟨events, .ok (left.map fun words => (words, parts))⟩
  | fault {t : Tape} {c : Command} {args : List Slot} {next : String → Tape}
      {parts : List Outcome} {fault : Fault} (events : List Event) (hasks : Asks r t c args next)
      (hrun : (run parts.length c args).result = .error fault) :
      Stops r run ⟨t, parts, events⟩
        ⟨events ++ (run parts.length c args).events, .error fault⟩

section

variable {r : Registry} {run : Nat → Command → List Slot → Traced Outcome}

theorem effort_step {s s' : Stage} (h : Step r run s s') : s'.tape.effort < s.tape.effort := by
  cases h with
  | quiet parts events hquiet =>
    cases hquiet with
    | closeUp passed more => exact effort_closeUp passed more
    | advance passed hmove => exact effort_advance passed _ _
  | asked events hasks hrun =>
    cases hasks with
    | operate passed hmove =>
      obtain ⟨op, rfl, -⟩ := Registry.move_eq_operate hmove
      exact effort_operate passed _ _ op _ _
    | call passed hmove => exact effort_call passed _ _ _ (Command.portion_snd_suffix _ _ _)

variable (r run) in
/-- **No scan goes on for ever.** -/
theorem step_wellFounded : WellFounded fun s' s : Stage => Step r run s s' :=
  Subrelation.wf effort_step (measure fun s : Stage => s.tape.effort).wf

end

/-! ### The steps make up the scan -/

/-- What the scan comes to from a stage on, with everything gathered before. -/
def Stage.proceed (r : Registry) (run : Nat → Command → List Slot → Traced Outcome)
    (s : Stage) : Traced (Option (List String × List Outcome)) :=
  ⟨s.events ++ (sweep r run s.tape.passed s.tape.rest s.parts).events,
    (sweep r run s.tape.passed s.tape.rest s.parts).result⟩

theorem proceed_start (r : Registry) (run : Nat → Command → List Slot → Traced Outcome)
    (words : List String) :
    (Stage.start words).proceed r run = sweep r run [] (words.map .word) [] := rfl

section

variable {r : Registry} (run : Nat → Command → List Slot → Traced Outcome)

theorem sweep_asks {t : Tape} {c : Command} {args : List Slot} {next : String → Tape}
    (h : Asks r t c args next) (parts : List Outcome) :
    sweep r run t.passed t.rest parts = (do
      let part ← run parts.length c args
      sweep r run (next part.value).passed (next part.value).rest (parts ++ [part])) := by
  cases h with
  | operate passed hmove => exact sweep_operate _ _ _ hmove
  | call passed hmove => exact sweep_call _ _ _ hmove

theorem sweep_quiet {t u : Tape} (h : Quiet r t u) (parts : List Outcome) :
    sweep r run t.passed t.rest parts = sweep r run u.passed u.rest parts := by
  cases h with
  | closeUp passed more => exact sweep_vacant _ _ _ _ _
  | advance passed hmove => exact sweep_advance _ _ _ hmove

theorem sweep_ends {t : Tape} {left : Option (List String)} (h : Ends r t left)
    (parts : List Outcome) :
    sweep r run t.passed t.rest parts = pure (left.map fun words => (words, parts)) := by
  cases h with
  | finish passed => exact sweep_nil _ _ _ _
  | abandon passed hmove => exact sweep_abandon _ _ _ hmove

variable {run}

theorem proceed_of_step {s s' : Stage} (h : Step r run s s') :
    s.proceed r run = s'.proceed r run := by
  cases h with
  | quiet parts events hquiet => simp only [Stage.proceed, sweep_quiet run hquiet]
  | asked events hasks hrun =>
    simp only [Stage.proceed, sweep_asks run hasks, Traced.bind_of_ok _ hrun, List.append_assoc]

theorem proceed_of_reaches {s s' : Stage} (h : Reaches r run s s') :
    s.proceed r run = s'.proceed r run := by
  induction h with
  | refl => rfl
  | tail _ hstep ih => exact ih.trans (proceed_of_step hstep)

theorem proceed_of_stops {s : Stage} {left : Traced (Option (List String × List Outcome))}
    (h : Stops r run s left) : s.proceed r run = left := by
  cases h with
  | ends parts events hends => simp [Stage.proceed, sweep_ends run hends]
  | fault events hasks hrun =>
    simp only [Stage.proceed, sweep_asks run hasks, Traced.bind_of_error _ hrun]

variable (r run) in
/-- A scan that has not stopped can take a step. -/
theorem stops_or_steps (s : Stage) : (∃ left, Stops r run s left) ∨ ∃ s', Step r run s s' := by
  -- From where the scan asks for an evaluation, it goes on if and only if that has no fault.
  have hasked : ∀ {t : Tape} {c : Command} {args : List Slot} {next : String → Tape}
      (parts : List Outcome) (events : List Event), Asks r t c args next →
      (∃ left, Stops r run ⟨t, parts, events⟩ left) ∨ ∃ s', Step r run ⟨t, parts, events⟩ s' := by
    intro t c args next parts events hasks
    cases hrun : (run parts.length c args).result with
    | error fault => exact .inl ⟨_, .fault events hasks hrun⟩
    | ok part => exact .inr ⟨_, .asked events hasks hrun⟩
  obtain ⟨⟨passed, rest⟩, parts, events⟩ := s
  cases rest with
  | nil => exact .inl ⟨_, .ends parts events (.finish passed)⟩
  | cons slot behind =>
    cases slot with
    | vacant => exact .inr ⟨_, .quiet parts events (.closeUp passed behind)⟩
    | word w =>
      cases hmove : r.move w behind with
      | abandon => exact .inl ⟨_, .ends parts events (.abandon passed hmove)⟩
      | operate c right tail => exact hasked parts events (.operate passed hmove)
      | call c => exact hasked parts events (.call passed hmove)
      | advance => exact .inr ⟨_, .quiet parts events (.advance passed hmove)⟩

variable (r run) in
/-- **Steps lead to a stage where the scan stops, and what it leaves there is what it returns.** -/
theorem reaches_stop (s : Stage) :
    ∃ s', Reaches r run s s' ∧ Stops r run s' (s.proceed r run) := by
  induction s using (step_wellFounded r run).induction with
  | _ s ih =>
    rcases stops_or_steps r run s with ⟨left, hstops⟩ | ⟨s', hstep⟩
    · exact ⟨s, .refl, by rwa [proceed_of_stops hstops]⟩
    · obtain ⟨t, hreaches, hstops⟩ := ih s' hstep
      exact ⟨t, .head hstep hreaches, by rwa [proceed_of_step hstep]⟩

end

/-! ### Words are used up and never made -/

theorem portion_fst_isPrefix {α : Type} (c : Command) (i : Nat) (words : List α) :
    (c.portion i words).1 <+: words := by
  unfold Command.portion
  split
  · exact List.prefix_refl _
  · exact List.take_prefix _ _
  · split
    · exact List.nil_prefix
    · exact List.take_prefix _ _

theorem length_live_append (a b : List Slot) :
    (Slot.live (a ++ b)).length = (Slot.live a).length + (Slot.live b).length := by
  rw [Slot.live_append, List.length_append]

section

variable {r : Registry} {run : Nat → Command → List Slot → Traced Outcome}

theorem Quiet.live_eq {t u : Tape} (h : Quiet r t u) : u.live = t.live := by
  cases h with
  | closeUp passed more => simp [Tape.live, live_closeUp, Slot.live]
  | advance passed hmove => simp [Tape.live, Slot.live]

/-- What is asked for leaves out at least one word, and its value adds none. -/
theorem Asks.length_lt {t : Tape} {c : Command} {args : List Slot} {next : String → Tape}
    (h : Asks r t c args next) :
    (Slot.live args).length < t.live.length ∧
      ∀ value, (next value).live.length ≤ t.live.length := by
  cases h with
  | @operate passed w behind c right tail hmove =>
    obtain ⟨op, rfl, -⟩ := Registry.move_eq_operate hmove
    constructor
    · cases right <;>
        simp only [Tape.live, Slot.live, List.length_append, List.length_cons, List.length_nil] <;>
        omega
    · intro value
      cases right <;> simp only [Tape.live, Slot.live, List.length_append, List.length_cons] <;> omega
  | @call passed w behind c hmove =>
    -- What is taken and what is kept are both cut out of the words behind the call.
    obtain ⟨front, hargs⟩ := portion_fst_isPrefix c passed.length (Slot.dense behind)
    obtain ⟨taken, hkept⟩ := c.portion_snd_suffix passed.length (Slot.dense behind)
    constructor
    · have hlen := length_live_append (c.portion passed.length (Slot.dense behind)).1 front
      rw [hargs, Slot.live_dense] at hlen
      simp only [Tape.live, Slot.live, List.length_append, List.length_reverse, List.length_cons]
      omega
    · intro value
      have hlen := length_live_append taken (c.portion passed.length (Slot.dense behind)).2
      rw [hkept, Slot.live_dense] at hlen
      simp only [Tape.live, Slot.live, live_afterCall, List.length_append, List.length_reverse,
        List.length_cons]
      omega

theorem Step.length_le {s s' : Stage} (h : Step r run s s') :
    s'.tape.live.length ≤ s.tape.live.length := by
  cases h with
  | quiet parts events hquiet => exact Nat.le_of_eq (congrArg List.length hquiet.live_eq)
  | asked events hasks hrun => exact hasks.length_lt.2 _

theorem Reaches.length_le {s s' : Stage} (h : Reaches r run s s') :
    s'.tape.live.length ≤ s.tape.live.length := by
  induction h with
  | refl => exact Nat.le_refl _
  | tail _ hstep ih => exact Nat.le_trans hstep.length_le ih

end

/-! ### Where the gaps are -/

/-- The gaps of a tape are in one row, at the scan or right behind the word there. -/
inductive Tidy : Tape → Prop
  | atScan (front : List String) (gaps : Nat) (words : List String) :
      Tidy ⟨(front.map .word).reverse, List.replicate gaps .vacant ++ words.map .word⟩
  | behindWord (front : List String) (w : String) (gaps : Nat) (words : List String) :
      Tidy ⟨(front.map .word).reverse,
        .word w :: (List.replicate gaps .vacant ++ words.map .word)⟩

theorem tidy_ofWords (words : List String) : Tidy (.ofWords words) := Tidy.atScan [] 0 words

section

variable {r : Registry} {run : Nat → Command → List Slot → Traced Outcome}

/-- A word that is being scanned on a tidy tape has words to its left, gaps and then words behind. -/
theorem Tidy.exists_of_word {passed behind : List Slot} {w : String}
    (h : Tidy ⟨passed, .word w :: behind⟩) :
    ∃ (front : List String) (gaps : Nat) (words : List String),
      passed = (front.map .word).reverse ∧
        behind = List.replicate gaps .vacant ++ words.map .word := by
  generalize ht : (⟨passed, .word w :: behind⟩ : Tape) = t at h
  cases h with
  | atScan front gaps words =>
    obtain ⟨rfl, hrest⟩ := Tape.mk.inj ht
    cases gaps with
    | succ n => simp [List.replicate_succ] at hrest
    | zero =>
      cases words with
      | nil => simp at hrest
      | cons v words =>
        simp only [List.replicate_zero, List.nil_append, List.map_cons, List.cons.injEq] at hrest
        exact ⟨front, 0, words, rfl, by simpa using hrest.2⟩
  | behindWord front v gaps words =>
    obtain ⟨rfl, hrest⟩ := Tape.mk.inj ht
    exact ⟨front, gaps, words, rfl, (List.cons.inj hrest).2⟩

/-- An operator on a tidy tape has a word behind it, and then only words. -/
theorem Tidy.exists_of_operate {passed behind tail : List Slot} {w : String} {c : Command}
    {right : Slot} (h : Tidy ⟨passed, .word w :: behind⟩)
    (hmove : r.move w behind = .operate c right tail) :
    ∃ (front : List String) (b : String) (words : List String),
      passed = (front.map .word).reverse ∧ right = .word b ∧ tail = words.map .word := by
  obtain ⟨op, rfl, -⟩ := Registry.move_eq_operate hmove
  obtain ⟨front, gaps, words, rfl, hbehind⟩ := h.exists_of_word
  cases gaps with
  | succ n => simp [List.replicate_succ] at hbehind
  | zero =>
    match words, hbehind with
    | _ :: b :: words, hbehind =>
      simp only [List.replicate_zero, List.nil_append, List.map_cons, List.cons.injEq] at hbehind
      exact ⟨front, b, words, rfl, hbehind.2.1, hbehind.2.2⟩

theorem eq_map_word_of_suffix_dense {slots kept : List Slot} (h : kept <:+ Slot.dense slots) :
    kept = (Slot.live kept).map .word := by
  obtain ⟨front, hfront⟩ := h
  obtain ⟨before, after, -, -, hafter⟩ := List.append_eq_map_iff.mp hfront
  rw [← hafter, Slot.live_map_word]

theorem Tidy.quiet {t u : Tape} (ht : Tidy t) (h : Quiet r t u) : Tidy u := by
  cases h with
  | closeUp passed more => exact tidy_ofWords _
  | @advance passed w behind hmove =>
    obtain ⟨front, gaps, words, rfl, rfl⟩ := ht.exists_of_word
    simpa using Tidy.atScan (front ++ [w]) gaps words

theorem Tidy.asked {t : Tape} {c : Command} {args : List Slot} {next : String → Tape}
    (ht : Tidy t) (h : Asks r t c args next) (value : String) : Tidy (next value) := by
  cases h with
  | operate passed hmove =>
    obtain ⟨front, b, words, rfl, rfl, rfl⟩ := ht.exists_of_operate hmove
    exact Tidy.behindWord front value 2 words
  | @call passed w behind c hmove =>
    -- The scan moves on to the row of gaps that the words of the call leave.
    obtain ⟨front, gaps, words, rfl, -⟩ := ht.exists_of_word
    have hkept := eq_map_word_of_suffix_dense
      (c.portion_snd_suffix (front.map Slot.word).reverse.length (Slot.dense behind))
    rw [afterCall, hkept]
    simpa using Tidy.atScan (front ++ [value]) _ _

/-- **Every step of a scan keeps its tape tidy.** -/
theorem Tidy.step {s s' : Stage} (hs : Tidy s.tape) (h : Step r run s s') : Tidy s'.tape := by
  cases h with
  | quiet parts events hquiet => exact hs.quiet hquiet
  | asked events hasks hrun => exact hs.asked hasks _

theorem tidy_of_reaches {words : List String} {s : Stage}
    (h : Reaches r run (.start words) s) : Tidy s.tape := by
  induction h with
  | refl => exact tidy_ofWords words
  | tail _ hstep ih => exact ih.step hstep

end

end Reduction

/-- The scan of a command's words stops somewhere, and what it leaves there is what it returns. -/
theorem scanned_stops (r : Registry) (env : Environment) (nesting : Nat) (chance : Chance)
    (words : List String) :
    ∃ s, Reduction.Reaches r (nested r env nesting chance) (.start words) s ∧
      Reduction.Stops r (nested r env nesting chance) s (scanned r env nesting chance words) :=
  Reduction.reaches_stop r (nested r env nesting chance) (.start words)

/-! ### What evaluations hand on

Words become parameters, parameters go to handlers, and the values of their outcomes are
words again.  So a property of words that handlers pass on to their outcomes goes
all the way through an evaluation.
-/

/-- What came out has `P`, or the fault has `F`. -/
inductive EndsIn {α : Type} (P : α → Prop) (F : Fault → Prop) : Except Fault α → Prop
  | ok {a : α} (h : P a) : EndsIn P F (.ok a)
  | error {fault : Fault} (h : F fault) : EndsIn P F (.error fault)

namespace Reduction

variable {r : Registry} {run : Nat → Command → List Slot → Traced Outcome}

/-- What is asked for has its words from the tape, and nothing but a value is added to them. -/
theorem Asks.mem_live {t : Tape} {c : Command} {args : List Slot} {next : String → Tape}
    (h : Asks r t c args next) :
    (∀ w ∈ Slot.live args, w ∈ t.live) ∧
      ∀ value, ∀ w ∈ (next value).live, w = value ∨ w ∈ t.live := by
  cases h with
  | @operate passed w behind c right tail hmove =>
    obtain ⟨op, rfl, -⟩ := Registry.move_eq_operate hmove
    constructor
    · intro v hv
      cases right <;> simp only [Tape.live, Slot.live, List.mem_append, List.mem_cons] at hv ⊢ <;>
        grind
    · intro value v hv
      cases right <;> simp only [Tape.live, Slot.live, List.mem_append, List.mem_cons] at hv ⊢ <;>
        grind
  | @call passed w behind c hmove =>
    -- What is taken and what is kept are both cut out of the words behind the call.
    obtain ⟨front, hargs⟩ := portion_fst_isPrefix c passed.length (Slot.dense behind)
    obtain ⟨taken, hkept⟩ := c.portion_snd_suffix passed.length (Slot.dense behind)
    have htaken := congrArg Slot.live hargs
    have hleft := congrArg Slot.live hkept
    rw [Slot.live_append, Slot.live_dense] at htaken hleft
    constructor
    · intro v hv
      simp only [Tape.live, Slot.live, List.mem_append, List.mem_cons, ← htaken]
      exact .inr (.inr (.inl hv))
    · intro value v hv
      simp only [Tape.live, Slot.live, live_afterCall, List.mem_append, List.mem_reverse,
        List.mem_cons] at hv ⊢
      rw [← hleft, List.mem_append]
      grind

/-- `W` holds of all words on the tape, and `P` of the outcomes so far. -/
structure Stage.Holds (W : String → Prop) (P : Outcome → Prop) (s : Stage) : Prop where
  words : ∀ w ∈ s.tape.live, W w
  parts : ∀ part ∈ s.parts, P part

section

variable {W : String → Prop} {P : Outcome → Prop} {F : Fault → Prop}

theorem Stage.holds_start {words : List String} (h : ∀ w ∈ words, W w) :
    (Stage.start words).Holds W P :=
  ⟨by simpa [Stage.start] using h, by simp [Stage.start]⟩

variable (hvalue : ∀ o, P o → W o.value)
  (hrun : ∀ k c args, r.Knows c → (∀ w ∈ Slot.live args, W w) → EndsIn P F (run k c args).result)

include hrun

/-- What is asked for on words with `W` ends well, or in a fault with `F`. -/
theorem Stage.Holds.asked {s : Stage} (hs : s.Holds W P) {c : Command} {args : List Slot}
    {next : String → Tape} (hasks : Asks r s.tape c args next) (k : Nat) :
    EndsIn P F (run k c args).result :=
  hrun k c args hasks.knows fun w hw => hs.words w (hasks.mem_live.1 w hw)

include hvalue

theorem Stage.Holds.step {s s' : Stage} (hs : s.Holds W P) (h : Step r run s s') :
    s'.Holds W P := by
  cases h with
  | quiet parts events hquiet =>
    refine ⟨fun w hw => hs.words w ?_, hs.parts⟩
    rwa [← hquiet.live_eq]
  | @asked t c args next parts part events hasks hpart =>
    have hends := hs.asked hrun hasks parts.length
    rw [hpart] at hends
    obtain ⟨hP⟩ := hends
    constructor
    · intro w hw
      rcases hasks.mem_live.2 _ w hw with rfl | hw
      · exact hvalue part hP
      · exact hs.words w hw
    · intro part' hmem
      rcases List.mem_append.mp hmem with hmem | hmem
      · exact hs.parts part' hmem
      · rwa [List.mem_singleton.mp hmem]

theorem Stage.Holds.reaches {s s' : Stage} (hs : s.Holds W P) (h : Reaches r run s s') :
    s'.Holds W P := by
  induction h with
  | refl => exact hs
  | tail _ hstep ih => exact ih.step hvalue hrun hstep

end

end Reduction

section

variable {r : Registry} {env : Environment} {nesting : Nat} {chance : Chance}
variable {W : String → Prop} {P : Outcome → Prop} {F : Fault → Prop}

theorem scanned_endsIn (hvalue : ∀ o, P o → W o.value)
    (hnested : ∀ k c args, r.Knows c → (∀ w ∈ Slot.live args, W w) →
      EndsIn P F (nested r env nesting chance k c args).result)
    {words : List String} (hwords : ∀ w ∈ words, W w) :
    EndsIn (fun res => ∀ found ∈ res, (∀ p ∈ found.1, W p) ∧ ∀ part ∈ found.2, P part) F
      (scanned r env nesting chance words).result := by
  obtain ⟨s, hreaches, hstops⟩ := scanned_stops r env nesting chance words
  have hs := (Reduction.Stage.holds_start hwords).reaches hvalue hnested hreaches
  generalize scanned r env nesting chance words = left at hstops
  cases hstops with
  | @ends t left parts events hends =>
    refine .ok fun found hfound => ?_
    obtain ⟨words, rfl, rfl⟩ := Option.map_eq_some_iff.mp hfound
    cases hends with
    | finish passed =>
      refine ⟨fun p hp => hs.words p ?_, hs.parts⟩
      simpa [Reduction.Tape.live, Slot.live] using hp
  | @fault t c args next parts fault events hasks hrun =>
    have hends := hs.asked hnested hasks parts.length
    rw [hrun] at hends
    obtain ⟨⟩ | ⟨hF⟩ := hends
    exact .error hF

theorem Outcome.foldl_append_keeps (happend : ∀ a b, P a → P b → P (a.append b)) :
    ∀ (row : List Outcome) (first : Outcome), P first → (∀ o ∈ row, P o) →
      P (row.foldl append first) := by
  intro row
  induction row with
  | nil =>
    intro first hfirst _
    exact hfirst
  | cons o row ih =>
    intro first hfirst hrow
    exact ih _ (happend _ _ hfirst (hrow o (by simp))) fun o' ho' => hrow o' (by simp [ho'])

theorem conclude_endsIn (hempty : P {}) (happend : ∀ a b, P a → P b → P (a.append b))
    {name : String} {c : Command}
    (hhandler : ∀ params, (∀ p ∈ params, W p) → EndsIn P F (c.handler chance params))
    {res : Option (List String × List Outcome)}
    (hres : ∀ found ∈ res, (∀ p ∈ found.1, W p) ∧ ∀ part ∈ found.2, P part) :
    EndsIn P F (conclude chance name c res).result := by
  cases res with
  | none => exact .ok hempty
  | some found =>
    obtain ⟨params, parts⟩ := found
    obtain ⟨hparams, hparts⟩ := hres _ rfl
    have hown := hhandler params hparams
    rw [conclude_some]
    cases hanswer : c.handler chance params with
    | error fault =>
      rw [hanswer] at hown
      obtain ⟨⟩ | ⟨hF⟩ := hown
      exact .error hF
    | ok own =>
      rw [hanswer] at hown
      obtain ⟨hP⟩ := hown
      refine .ok (Outcome.foldl_append_keeps happend _ _ hempty fun o ho => ?_)
      rcases List.mem_append.mp ho with ho | ho
      · exact hparts o ho
      · rwa [List.mem_singleton.mp ho]

/--
**What handlers make of words with `W` is what evaluations make of them**, provided that `W`
is kept by substitution and that `P` also holds of an outcome of nothing and of the complaint
about a command that is not found, and passes to one outcome after another.
-/
theorem evaluate_endsIn (env : Environment) (hsubstitute : ∀ w, W w → W (substitute env w))
    (hvalue : ∀ o, P o → W o.value) (hempty : P {})
    (happend : ∀ a b, P a → P b → P (a.append b))
    (hunknown : ∀ name, W name → P (commandNotFound name)) (hdeep : F .nestingTooDeep)
    (hhandler : ∀ c ∈ r.commands, ∀ chance params, (∀ p ∈ params, W p) →
      EndsIn P F (c.handler chance params)) :
    ∀ (nesting : Nat) (chance : Chance) (name : String) (slots : List Slot),
      (r.get? name = none → W name) → (∀ w ∈ Slot.live slots, W w) →
      EndsIn P F (evaluate r env nesting chance name slots).result := by
  intro nesting
  induction nesting with
  | zero =>
    intro chance name slots _ _
    exact .error hdeep
  | succ nesting ih =>
    intro chance name slots hname hslots
    cases hc : r.get? name with
    | none =>
      rw [evaluate, hc]
      exact .ok (hunknown name (hname hc))
    | some c =>
      have hwords : ∀ w ∈ substituteAll env slots, W w := by
        intro w hw
        obtain ⟨v, hv, rfl⟩ := List.mem_map.mp hw
        exact hsubstitute v (hslots v hv)
      -- A nested command is known, so there the name does not matter.
      have hnested : ∀ k d args, r.Knows d → (∀ w ∈ Slot.live args, W w) →
          EndsIn P F (nested r env nesting chance k d args).result := by
        intro k d args hd hargs
        refine ih (chance.child k) d.name args (fun hnone => ?_) hargs
        cases hd.symm.trans hnone
      have hscan := scanned_endsIn hvalue hnested hwords
      cases hresult : (scanned r env nesting chance (substituteAll env slots)).result with
      | error fault =>
        rw [hresult] at hscan
        obtain ⟨⟩ | ⟨hF⟩ := hscan
        rw [evaluate_of_scanned_error hc (Traced.ext rfl hresult)]
        exact .error hF
      | ok res =>
        rw [hresult] at hscan
        obtain ⟨hres⟩ := hscan
        rw [evaluate_of_scanned_ok hc (Traced.ext rfl hresult)]
        exact conclude_endsIn hempty happend
          (hhandler c (List.mem_of_find?_eq_some hc) chance) hres

/--
What all handlers keep to, all evaluations keep to, provided that it also holds of an
outcome of nothing and of a command that is not found, and passes to one outcome after another.
-/
theorem evaluate_keeps (hempty : P {})
    (happend : ∀ a b, P a → P b → P (a.append b)) (hunknown : ∀ name, P (commandNotFound name))
    (hhandler : ∀ c ∈ r.commands, ∀ chance params o, c.handler chance params = .ok o → P o)
    (env : Environment) (nesting : Nat) (chance : Chance) (name : String) (slots : List Slot)
    (o : Outcome) (h : (evaluate r env nesting chance name slots).result = .ok o) : P o := by
  have hanswer : ∀ c ∈ r.commands, ∀ chance params, (∀ p ∈ params, True) →
      EndsIn P (fun _ => True) (c.handler chance params) := by
    intro c hc chance params _
    cases hown : c.handler chance params with
    | error fault => exact .error trivial
    | ok own => exact .ok (hhandler c hc chance params own hown)
  have hends := evaluate_endsIn (W := fun _ => True) env (fun _ _ => trivial)
    (fun _ _ => trivial) hempty happend (fun name _ => hunknown name) trivial hanswer nesting
    chance name slots (fun _ => trivial) (fun _ _ => trivial)
  rw [h] at hends
  obtain ⟨hP⟩ := hends
  exact hP

end

end Eel
