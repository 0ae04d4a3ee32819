/-
A run never stops without saying so.

Two things stop a run: the halt flag of an outcome, and a fault.  Two kinds of entries tell
the reader of a log about it.  Nothing in the definitions ties the one to the other: a
handler is free to raise the flag in silence, or to log an error and carry on.  The built-in
commands never do.  Their outcomes are candid, which means that the flag is raised exactly
when there is an entry to account for it, and that this entry is shown.

Evaluations hand candor on.  Flag and log of a nested command reach the outermost one
together, or are dropped together where a comment abandons the command.  So every outcome
is candid, and from there on it is a matter of lines: a run takes one turn after another, the
entries of a turn carry the number of its line, and the first turn that stops is the last.
-/
import Eel.Proofs.Lines
import Eel.Proofs.Steps

namespace Eel

/-! ### Candor -/

/-- The entry tells that the run ends here. -/
def Entry.Stops (e : Entry) : Prop := e.kind = .error ∨ e.kind = .halted

instance (e : Entry) : Decidable e.Stops := inferInstanceAs (Decidable (_ ∨ _))

namespace Outcome

/-- Flag and log agree on whether the run ends here, and the entries that tell are shown. -/
structure Candid (o : Outcome) : Prop where
  halt_iff : o.halt = true ↔ ∃ e ∈ o.log, e.Stops
  isShown : ∀ e ∈ o.log, e.Stops → e.isShown = true

theorem candid_of_quiet {o : Outcome} (hhalt : o.halt = false) (hlog : ∀ e ∈ o.log, ¬ e.Stops) :
    o.Candid := by
  refine ⟨?_, fun e he hstops => absurd hstops (hlog e he)⟩
  simpa [hhalt] using hlog

theorem candid_ofValue (value : String) : (ofValue value).Candid :=
  candid_of_quiet rfl (by simp [ofValue])

theorem candid_say {kind : Kind} {halt : Bool} (text : String)
    (h : halt = true ↔ kind = .error ∨ kind = .halted) : (say kind text halt).Candid := by
  constructor
  · simpa [say, Entry.Stops] using h
  · simp [say, Entry.isShown]

theorem candid_fail (text : String) : (fail text).Candid := candid_say text (by simp)

theorem Candid.append {a b : Outcome} (ha : a.Candid) (hb : b.Candid) : (a.append b).Candid := by
  constructor
  · simp only [Outcome.append, Bool.or_eq_true, ha.halt_iff, hb.halt_iff, List.mem_append,
      or_and_right, exists_or]
  · intro e he
    rcases List.mem_append.mp he with he | he
    · exact ha.isShown e he
    · exact hb.isShown e he

/-- What is shown of a candid outcome tells as much as the outcome. -/
theorem Candid.halt_iff_shown {o : Outcome} (h : o.Candid) (number : Nat) :
    o.halt = true ↔ ∃ e ∈ o.shown number, e.Stops := by
  rw [h.halt_iff]
  constructor
  · rintro ⟨e, he, hstops⟩
    refine ⟨e.stamp number, ?_, hstops⟩
    exact List.mem_map_of_mem (List.mem_filter.mpr ⟨he, h.isShown e he hstops⟩)
  · rintro ⟨e, he, hstops⟩
    obtain ⟨e', he', rfl⟩ := List.mem_map.mp he
    exact ⟨e', (List.mem_filter.mp he').1, hstops⟩

end Outcome

namespace Command

/-- The command does nothing but compute a value. -/
def Computes (c : Command) : Prop :=
  ∀ chance params o, c.handler chance params = .ok o → ∃ value, o = .ofValue value

/-- All outcomes that the command's handler gives are candid. -/
def Candid (c : Command) : Prop :=
  ∀ chance params o, c.handler chance params = .ok o → o.Candid

theorem Computes.candid {c : Command} (h : c.Computes) : c.Candid := by
  intro chance params o ho
  obtain ⟨value, rfl⟩ := h chance params o ho
  exact Outcome.candid_ofValue value

end Command

/-! ### The built-in commands -/

namespace Builtin

theorem exists_of_map_ofValue {x : Except Fault String} {o : Outcome}
    (h : x.map Outcome.ofValue = .ok o) : ∃ value, o = .ofValue value := by
  cases x with
  | error fault => cases h
  | ok value =>
    cases h
    exact ⟨value, rfl⟩

theorem exists_of_numberOutcome {x : Except Fault Float} {o : Outcome}
    (h : (do return numberOutcome (← x)) = Except.ok o) : ∃ value, o = .ofValue value := by
  cases x with
  | error fault => cases h
  | ok x =>
    cases h
    exact ⟨_, rfl⟩

theorem computes_ofNumber (name : String) (shortage : Fault) (f : Float → Except Fault Float) :
    (ofNumber name shortage f).Computes := by
  intro chance params o h
  cases hread : (params.take 1).mapM numberOf with
  | error fault => simp [ofNumber, hread, bind, Except.bind] at h
  | ok xs =>
    cases xs with
    | nil => simp [ofNumber, hread, bind, Except.bind] at h
    | cons x xs =>
      simp only [ofNumber, hread] at h
      exact exists_of_numberOutcome h

theorem computes_ofNumbers (name : String) (shortage : Nat → Fault)
    (f : Float → Float → Except Fault Float) : (ofNumbers name shortage f).Computes := by
  intro chance params o h
  cases hread : (params.take 2).mapM numberOf with
  | error fault => simp [ofNumbers, hread, bind, Except.bind] at h
  | ok xs =>
    match xs with
    | [] => simp [ofNumbers, hread, bind, Except.bind] at h
    | [x] => simp [ofNumbers, hread, bind, Except.bind] at h
    | x :: y :: xs =>
      simp only [ofNumbers, hread] at h
      exact exists_of_numberOutcome h

theorem computes_unary (name : String) (f : String → Except Fault String) :
    (unary name f).Computes := by
  intro chance params o h
  match params with
  | [] => cases h
  | a :: more => exact exists_of_map_ofValue h

theorem computes_binary (name : String) (f : String → String → String) :
    (binary name f).Computes := by
  intro chance params o h
  match params with
  | [] | [_] => cases h
  | a :: b :: more =>
    cases h
    exact ⟨_, rfl⟩

theorem computes_between (glyph : String) (f : String → String → Except Fault String) :
    (between glyph f).Computes := by
  intro chance params o h
  match params with
  | [] | [_] => cases h
  | a :: b :: more => exact exists_of_map_ofValue h

theorem computes_numeric : ∀ c ∈ numeric, c.Computes := by
  simp [numeric, elementary, computes_ofNumber, computes_ofNumbers]

theorem computes_textual : ∀ c ∈ textual, c.Computes := by
  have hrandom : Command.Computes
      { name := "random", arity := some 0, handler := drawNumber } := by
    intro chance params o h
    cases h
    exact ⟨_, rfl⟩
  simp [textual, computes_unary, computes_binary, hrandom]

theorem computes_operators : ∀ c ∈ operators, c.Computes := by
  simp [operators, betweenNumbers, betweenTexts, computes_between]

theorem candid_logging {kind : Kind} {halt : Bool} (name : String)
    (h : halt = true ↔ kind = .error ∨ kind = .halted) : (logging name kind halt).Candid := by
  intro chance params o ho
  cases ho
  exact Outcome.candid_say _ h

theorem candid_set : Command.Candid { name := "set", handler := setVariable } := by
  intro chance params o ho
  simp only [setVariable] at ho
  split at ho
  · cases ho
    exact Outcome.candid_of_quiet rfl (by simp)
  · cases ho
    exact Outcome.candid_fail _

theorem candid_marker (glyph : String) : (marker glyph).Candid := by
  intro chance params o ho
  cases ho
  exact Outcome.candid_of_quiet rfl (by simp [Entry.Stops])

theorem candid_speech : ∀ c ∈ speech, c.Candid := by
  simp [speech, candid_logging, candid_set]

/-- Every built-in command is candid. -/
theorem candid_of_mem_commands : ∀ c ∈ commands, c.Candid := by
  intro c hc
  simp only [commands, List.mem_append] at hc
  rcases hc with (((hc | hc) | hc) | hc) | hc
  · exact candid_speech c hc
  · exact (computes_numeric c hc).candid
  · exact (computes_textual c hc).candid
  · exact (computes_operators c hc).candid
  · simp only [markers, List.mem_cons, List.not_mem_nil, or_false] at hc
    rcases hc with rfl | rfl | rfl <;> exact candid_marker _

/-- **Evaluations with the built-in commands are candid.** -/
theorem candid_evaluate {env : Environment} {nesting : Nat} {chance : Chance} {name : String}
    {slots : List Slot} {o : Outcome}
    (h : (evaluate registry env nesting chance name slots).result = .ok o) : o.Candid :=
  evaluate_keeps (P := Outcome.Candid) (Outcome.candid_of_quiet rfl (by simp))
    (fun _ _ ha hb => ha.append hb) (fun _ => Outcome.candid_fail _) candid_of_mem_commands
    env nesting chance name slots o h

end Builtin

/-! ### The order of lines -/

theorem Line.le_number_of_mem_keptFrom (markers : List String) (lines : List String)
    (number offset : Nat) :
    ∀ line ∈ keptFrom markers number offset lines, number ≤ line.number := by
  intro line hline
  obtain ⟨before, source, after, -, hfrom⟩ := exists_of_mem_keptFrom _ _ _ _ line hline
  have := hfrom.number_eq
  omega

/-- Kept lines stand in the order of their numbers. -/
theorem Line.pairwise_keptFrom (markers : List String) :
    ∀ (lines : List String) (number offset : Nat),
      (keptFrom markers number offset lines).Pairwise fun a b => a.number < b.number := by
  intro lines
  induction lines with
  | nil =>
    intro number offset
    exact .nil
  | cons first lines ih =>
    intro number offset
    simp only [keptFrom]
    split
    · exact .cons (le_number_of_mem_keptFrom markers lines _ _) (ih _ _)
    · exact ih _ _

/-! ### Turns -/

/-- The evaluation of a line from a state on. -/
structure Turn where
  state : State
  line : Line

namespace Interpreter

variable (i : Interpreter)

/-- What a turn evaluates. -/
def evaluation (t : Turn) : Traced Outcome :=
  i.evaluate t.state (Line.cut t.line.text).1 ((Line.cut t.line.text).2.map .word)

/-- The entries that a turn adds to the log: one for a fault, or what is shown of the outcome. -/
def entriesOf (t : Turn) : List Entry :=
  match (i.evaluation t).result with
  | .error fault => [⟨.error, some fault.report, t.line.number⟩]
  | .ok outcome => outcome.shown t.line.number

/-- The turns that a run takes: from line to line, until there is a fault or a halt. -/
def turns (s : State) : List Line → List Turn
  | [] => []
  | line :: lines =>
    ⟨s, line⟩ ::
      match (i.evaluation ⟨s, line⟩).result with
      | .error _ => []
      | .ok outcome => if outcome.halt then [] else turns (s.after outcome) lines

/-- The turn leaves a run to go on: no fault, and no halt. -/
def GoesOn (t : Turn) : Prop :=
  ∃ outcome, (i.evaluation t).result = .ok outcome ∧ outcome.halt = false

section

variable {i}

theorem runLine_of_error {t : Turn} {fault : Fault}
    (h : (i.evaluation t).result = .error fault) :
    i.runLine t.state t.line = ⟨i.entriesOf t, (i.evaluation t).events,
      { t.state with chance := t.state.chance.next }, true⟩ := by
  rw [entriesOf, h]
  unfold evaluation at h
  simp only [runLine, h]
  rfl

theorem runLine_of_ok {t : Turn} {outcome : Outcome}
    (h : (i.evaluation t).result = .ok outcome) :
    i.runLine t.state t.line = ⟨i.entriesOf t, (i.evaluation t).events,
      t.state.after outcome, outcome.halt⟩ := by
  rw [entriesOf, h]
  unfold evaluation at h
  simp only [runLine, h]
  rfl

end

/-- A run is made of its turns. -/
theorem runKept_turns (s : State) (lines : List Line) :
    (i.runKept s lines).entries = (i.turns s lines).flatMap i.entriesOf ∧
      (i.runKept s lines).events = (i.turns s lines).flatMap fun t => (i.evaluation t).events := by
  induction lines generalizing s with
  | nil => exact ⟨rfl, rfl⟩
  | cons line lines ih =>
    rw [runKept_cons, turns]
    cases hresult : (i.evaluation ⟨s, line⟩).result with
    | error fault =>
      have hrun := runLine_of_error hresult
      simp [hrun, Progress.andThen]
    | ok outcome =>
      have hrun := runLine_of_ok hresult
      cases hhalt : outcome.halt with
      | true => simp [hrun, hhalt, Progress.andThen]
      | false => simp [hrun, hhalt, Progress.andThen, ih]

/-- The run of some lines stops at the turn `last`, before it comes to the lines `after`. -/
structure StopsAt (s : State) (lines : List Line) (earlier : List Turn) (last : Turn)
    (after : List Line) : Prop where
  turns_eq : i.turns s lines = earlier ++ [last]
  lines_eq : lines = earlier.map Turn.line ++ last.line :: after
  goesOn : ∀ t ∈ earlier, i.GoesOn t
  not_goesOn : ¬ i.GoesOn last

/-- A run that does not stop anywhere has a turn for every line. -/
theorem goesOn_or_stopsAt (s : State) (lines : List Line) :
    ((i.turns s lines).map Turn.line = lines ∧ ∀ t ∈ i.turns s lines, i.GoesOn t) ∨
      ∃ earlier last after, i.StopsAt s lines earlier last after := by
  induction lines generalizing s with
  | nil => exact .inl ⟨rfl, by simp [turns]⟩
  | cons line lines ih =>
    by_cases hfirst : i.GoesOn ⟨s, line⟩
    · obtain ⟨outcome, hresult, hhalt⟩ := id hfirst
      have hturns : i.turns s (line :: lines) = ⟨s, line⟩ :: i.turns (s.after outcome) lines := by
        simp [turns, hresult, hhalt]
      rcases ih (s.after outcome) with ⟨hlines, hall⟩ | ⟨earlier, last, after, h⟩
      · left
        rw [hturns, List.map_cons, hlines]
        exact ⟨rfl, List.forall_mem_cons.mpr ⟨hfirst, hall⟩⟩
      · right
        refine ⟨⟨s, line⟩ :: earlier, last, after, ?_, ?_, ?_, h.not_goesOn⟩
        · rw [hturns, h.turns_eq, List.cons_append]
        · rw [List.map_cons, List.cons_append, ← h.lines_eq]
        · exact List.forall_mem_cons.mpr ⟨hfirst, h.goesOn⟩
    · refine .inr ⟨[], ⟨s, line⟩, lines, ?_, rfl, by simp, hfirst⟩
      cases hresult : (i.evaluation ⟨s, line⟩).result with
      | error fault => simp [turns, hresult]
      | ok outcome =>
        cases hhalt : outcome.halt with
        | true => simp [turns, hresult, hhalt]
        | false => exact absurd ⟨outcome, hresult, hhalt⟩ hfirst

/-- Turns are taken in the order of the lines. -/
theorem map_line_turns_isPrefix (s : State) (lines : List Line) :
    (i.turns s lines).map Turn.line <+: lines := by
  rcases i.goesOn_or_stopsAt s lines with ⟨hlines, -⟩ | ⟨earlier, last, after, h⟩
  · exact ⟨[], by rw [hlines, List.append_nil]⟩
  · refine ⟨after, ?_⟩
    rw [h.turns_eq, List.map_append, List.append_assoc, h.lines_eq]
    rfl

section

variable {i} {s : State} {lines : List Line} {earlier : List Turn} {last : Turn}
variable {after : List Line} {e : Entry}

theorem line_of_mem_entriesOf {t : Turn} (h : e ∈ i.entriesOf t) : e.line = t.line.number := by
  unfold entriesOf at h
  split at h
  · rw [List.mem_singleton.mp h]
  · obtain ⟨e', -, rfl⟩ := List.mem_map.mp h
    rfl

/-- On lines in order, no entry is from further down than the line that stops the run. -/
theorem StopsAt.line_le (h : i.StopsAt s lines earlier last after)
    (horder : lines.Pairwise fun a b => a.number < b.number)
    (he : e ∈ (i.turns s lines).flatMap i.entriesOf) : e.line ≤ last.line.number := by
  obtain ⟨t, ht, he⟩ := List.mem_flatMap.mp he
  rw [h.lines_eq, List.pairwise_append] at horder
  rw [h.turns_eq, List.mem_append, List.mem_singleton] at ht
  rw [line_of_mem_entriesOf he]
  rcases ht with ht | rfl
  · have := horder.2.2 t.line (List.mem_map_of_mem ht) last.line (by simp)
    omega
  · exact Int.le_refl _

theorem StopsAt.lt_after (h : i.StopsAt s lines earlier last after)
    (horder : lines.Pairwise fun a b => a.number < b.number) :
    ∀ line ∈ after, last.line.number < line.number := by
  rw [h.lines_eq, List.pairwise_append, List.pairwise_cons] at horder
  exact horder.2.1.1

variable (hi : i.registry = Builtin.registry)

include hi

theorem candid_of_evaluate {name : String} {slots : List Slot} {outcome : Outcome}
    (h : (i.evaluate s name slots).result = .ok outcome) : outcome.Candid := by
  unfold evaluate at h
  rw [hi] at h
  exact Builtin.candid_evaluate h

/-- The entries of a turn tell whether the run goes on. -/
theorem goesOn_iff (t : Turn) : i.GoesOn t ↔ ∀ e ∈ i.entriesOf t, ¬ e.Stops := by
  unfold entriesOf GoesOn
  cases hresult : (i.evaluation t).result with
  | error fault => simp [Entry.Stops]
  | ok outcome =>
    have hshown := (candid_of_evaluate hi hresult).halt_iff_shown t.line.number
    simp only [Except.ok.injEq, exists_eq_left']
    rw [← Bool.not_eq_true, hshown, not_exists]
    simp only [not_and]

theorem not_stops_of_goesOn {ts : List Turn} (hall : ∀ t ∈ ts, i.GoesOn t)
    (he : e ∈ ts.flatMap i.entriesOf) : ¬ e.Stops := by
  obtain ⟨t, ht, he⟩ := List.mem_flatMap.mp he
  exact (goesOn_iff hi t).mp (hall t ht) e he

/-- What tells of a stop is said on the line that stops the run. -/
theorem StopsAt.line_eq (h : i.StopsAt s lines earlier last after)
    (he : e ∈ (i.turns s lines).flatMap i.entriesOf) (hstops : e.Stops) :
    e.line = last.line.number := by
  rw [h.turns_eq, List.flatMap_append, List.mem_append, List.flatMap_singleton] at he
  rcases he with he | he
  · exact absurd hstops (not_stops_of_goesOn hi h.goesOn he)
  · exact line_of_mem_entriesOf he

theorem StopsAt.exists_stops (h : i.StopsAt s lines earlier last after) :
    ∃ e ∈ (i.turns s lines).flatMap i.entriesOf, e.Stops := by
  have hsome := mt (goesOn_iff hi last).mpr h.not_goesOn
  simp only [Classical.not_forall, Classical.not_not] at hsome
  obtain ⟨e, he, hstops⟩ := hsome
  refine ⟨e, ?_, hstops⟩
  rw [h.turns_eq]
  exact List.mem_flatMap.mpr ⟨last, by simp, he⟩

end

/-! ### The log of a program -/

theorem entries_runLines (s : State) (lines : List String) :
    (i.runLines s lines).entries =
      logOf ((i.turns s (Line.kept i.registry.commentMarkers lines)).flatMap i.entriesOf) :=
  congrArg logOf (i.runKept_turns s _).1

theorem logOf_ne_nil (entries : List Entry) : logOf entries ≠ [] := by
  unfold logOf
  split
  · simp
  · simp_all

theorem mem_of_mem_logOf {entries : List Entry} {e : Entry} (h : e ∈ logOf entries) :
    e ∈ entries ∨ e = nothingSaid := by
  unfold logOf at h
  split at h
  · exact .inr (List.mem_singleton.mp h)
  · exact .inl h

/-- The entry that stands for an empty log tells of no stop. -/
theorem mem_logOf_iff_of_stops {entries : List Entry} {e : Entry} (hstops : e.Stops) :
    e ∈ logOf entries ↔ e ∈ entries := by
  constructor
  · intro h
    rcases mem_of_mem_logOf h with h | rfl
    · exact h
    · simp [nothingSaid, Entry.Stops] at hstops
  · intro h
    rw [logOf, if_neg (by simpa using List.ne_nil_of_mem h)]
    exact h

/--
**A run stops where its log says so, and nowhere else.**  With the built-in commands, the
flag of every outcome agrees with its log.  If the log of a program tells of a stop, then all
entries that tell of it carry the number of one line.  It is the largest number in the log,
the line is the last one that is evaluated, and the kept lines after it have no turn.  If
the log tells of no stop, every kept line has its turn, without a fault or a halt.
-/
theorem halt_iff_stop_logged (i : Interpreter) (hi : i.registry = Builtin.registry) :
    (∀ s name slots outcome, (i.evaluate s name slots).result = .ok outcome →
      (outcome.halt = true ↔ ∃ e ∈ outcome.log, e.Stops)) ∧
    ∀ (s : State) (source : Source) (lines : List String) (kept : List Line),
      source.lines = .ok lines → kept = Line.kept i.registry.commentMarkers lines →
      ∃ p, i.run s source = .ok p ∧
        p.entries = logOf ((i.turns s kept).flatMap i.entriesOf) ∧
        (p.events = (i.turns s kept).flatMap fun t => (i.evaluation t).events) ∧
        ((∃ e ∈ p.entries, e.Stops) →
          ∃ earlier last after, i.StopsAt s kept earlier last after ∧
            (∀ e ∈ p.entries, e.Stops → e.line = last.line.number) ∧
            (∀ e ∈ p.entries, e.line ≤ last.line.number) ∧
            ∀ line ∈ after, last.line.number < line.number) ∧
        ((∀ e ∈ p.entries, ¬ e.Stops) →
          (i.turns s kept).map Turn.line = kept ∧ ∀ t ∈ i.turns s kept, i.GoesOn t) := by
  refine ⟨fun s name slots outcome h => (candid_of_evaluate hi h).halt_iff, ?_⟩
  intro s source lines kept hsource hkept
  have hrun : i.run s source = .ok (i.runLines s lines) := by
    rw [run, hsource]
    rfl
  obtain ⟨hentries, hevents⟩ := i.runKept_turns s kept
  have hlog : (i.runLines s lines).entries = logOf ((i.turns s kept).flatMap i.entriesOf) := by
    rw [← hentries, hkept]
    rfl
  refine ⟨_, hrun, hlog, by rw [← hevents, hkept]; rfl, ?_⟩
  rw [hlog]
  rcases i.goesOn_or_stopsAt s kept with ⟨hlines, hall⟩ | ⟨earlier, last, after, h⟩
  · refine ⟨?_, fun _ => ⟨hlines, hall⟩⟩
    rintro ⟨e, he, hstops⟩
    rw [mem_logOf_iff_of_stops hstops] at he
    exact absurd hstops (not_stops_of_goesOn hi hall he)
  · -- The numbers of the kept lines grow, so the last turn has the largest one.
    have horder : kept.Pairwise fun a b => a.number < b.number := by
      rw [hkept]
      exact Line.pairwise_keptFrom _ _ _ _
    constructor
    · intro _
      refine ⟨earlier, last, after, h, ?_, ?_, h.lt_after horder⟩
      · intro e he hstops
        exact h.line_eq hi ((mem_logOf_iff_of_stops hstops).mp he) hstops
      · intro e he
        rcases mem_of_mem_logOf he with he | rfl
        · exact h.line_le horder he
        · exact Int.natCast_nonneg _
    · intro hnone
      obtain ⟨e, he, hstops⟩ := h.exists_stops hi
      exact absurd hstops (hnone e ((mem_logOf_iff_of_stops hstops).mpr he))

/--
A stop nested in a `print` is logged in front of what is printed, both on the third line, and
the fourth line has no turn.
-/
theorem halt_iff_stop_logged_print_stop :
    (Source.single (.text "set a 1\n\nprint -stop -a\nprint b")).lines =
        .ok ["set a 1", "", "print -stop -a", "print b"] ∧
    ∃ p, ({ nesting := 9 } : Interpreter).run ⟨∅, .constant 0⟩
        (.single (.text "set a 1\n\nprint -stop -a\nprint b")) = .ok p ∧
      p.entries = [⟨.halted, some "1", 3⟩, ⟨.output, some "true", 3⟩] ∧
      ∃ earlier last after,
        ({ nesting := 9 } : Interpreter).StopsAt ⟨∅, .constant 0⟩
          [⟨1, 0, "set a 1"⟩, ⟨3, 9, "print -stop -a"⟩, ⟨4, 24, "print b"⟩] earlier last after ∧
        (∀ e ∈ p.entries, e.Stops → e.line = last.line.number) ∧
        (∀ e ∈ p.entries, e.line ≤ last.line.number) ∧
        ∀ line ∈ after, last.line.number < line.number := by
  have hlines : (Source.single (.text "set a 1\n\nprint -stop -a\nprint b")).lines =
      .ok ["set a 1", "", "print -stop -a", "print b"] :=
    congrArg Except.ok (by decide +kernel)
  have hkept : [⟨1, 0, "set a 1"⟩, ⟨3, 9, "print -stop -a"⟩, ⟨4, 24, "print b"⟩] =
      Line.kept ({ nesting := 9 } : Interpreter).registry.commentMarkers
        ["set a 1", "", "print -stop -a", "print b"] := by
    decide +kernel
  obtain ⟨p, hrun, hlog, -, hstop, -⟩ :=
    (halt_iff_stop_logged { nesting := 9 } rfl).2 ⟨∅, .constant 0⟩ _ _ _ hlines hkept
  have hentries : p.entries = [⟨.halted, some "1", 3⟩, ⟨.output, some "true", 3⟩] := by
    rw [hlog]
    decide +kernel
  refine ⟨hlines, p, hrun, hentries, hstop ?_⟩
  rw [hentries]
  exact ⟨⟨.halted, some "1", 3⟩, by simp, .inr rfl⟩

end Interpreter

end Eel
