/-
Programs are run line by line, and it does not matter where they are cut in two.

The lines of a program meet only in the state that one leaves to the next and in the
numbers of the lines.  Numbers are shifted by the length of what comes first, dropped
lines included, and nothing but the stamps of the entries depends on them.  So a
program cut in two runs as its first part, and if no line of that part stopped, as
its second part from the state that the first one left.

`runLines_append` says so, and it says what becomes of a line that stops.  A fault
leaves a single entry and the variables as they were, whatever had been said or bound
inside the line before.  A halt leaves everything that the line did.
-/
import Eel.Program
import Eel.Proofs.Scan

namespace Eel

/-! ### Lines further down -/

/-- The line `n` lines and `m` characters further down. -/
def Line.shift (n m : Nat) (l : Line) : Line := ⟨l.number + n, l.offset + m, l.text⟩

/-- The entry stamped `n` lines further down. -/
def Entry.shift (n : Nat) (e : Entry) : Entry := e.stamp (e.line + n)

/-- The state after a line that had an outcome. -/
def State.after (s : State) (outcome : Outcome) : State :=
  ⟨s.env.merge outcome.writes, s.chance.next⟩

/-- What a log shows of an outcome on a line with a given number. -/
def Outcome.shown (outcome : Outcome) (number : Nat) : List Entry :=
  (outcome.log.filter Entry.isShown).map (·.stamp number)

theorem Outcome.shown_shift (outcome : Outcome) (n number : Nat) :
    (outcome.shown number).map (.shift n) = outcome.shown (n + number) := by
  rw [shown, List.map_map, shown]
  congr 1
  funext e
  simp [Entry.shift, Entry.stamp, Int.add_comm]

namespace Line

/-- How many characters the lines take when each is ended by a line feed. -/
def width : List String → Nat
  | [] => 0
  | line :: lines => line.toList.length + 1 + width lines

theorem keptFrom_shift (markers : List String) (n m : Nat) :
    ∀ (number offset : Nat) (lines : List String),
      keptFrom markers (number + n) (offset + m) lines =
        (keptFrom markers number offset lines).map (shift n m) := by
  intro number offset lines
  induction lines generalizing number offset with
  | nil => rfl
  | cons line lines ih =>
    have hlater : keptFrom markers (number + n + 1) (offset + m + line.toList.length + 1) lines
        = (keptFrom markers (number + 1) (offset + line.toList.length + 1) lines).map
            (shift n m) := by
      rw [← ih]
      congr 1 <;> omega
    simp only [keptFrom, hlater]
    split
    · simp only [List.map_cons, shift, List.cons.injEq, Line.mk.injEq, and_true, true_and]
      omega
    · rfl

theorem keptFrom_append (markers : List String) :
    ∀ (number offset : Nat) (first second : List String),
      keptFrom markers number offset (first ++ second) =
        keptFrom markers number offset first ++
          keptFrom markers (number + first.length) (offset + width first) second := by
  intro number offset first second
  induction first generalizing number offset with
  | nil => simp [keptFrom, width]
  | cons line lines ih =>
    have hnumber : number + 1 + lines.length = number + (line :: lines).length := by
      simp only [List.length_cons]
      omega
    have hoffset : offset + line.toList.length + 1 + width lines
        = offset + width (line :: lines) := by
      rw [width]
      omega
    simp only [List.cons_append, keptFrom, ih, hnumber, hoffset]
    split <;> rfl

/-- A kept line that was the line `source` behind some others, the first of them as given. -/
structure ComesFrom (markers : List String) (number offset : Nat) (before : List String)
    (source : String) (l : Line) : Prop where
  number_eq : l.number = number + before.length
  offset_eq : l.offset =
    offset + width before + (source.toList.length - (Text.trimLeft source.toList).length)
  text_eq : l.text.toList = Text.trim source.toList
  isKept : isKept markers l.text.toList = true

theorem ComesFrom.cons {markers before : List String} {number offset : Nat} {first source : String}
    {l : Line}
    (h : l.ComesFrom markers (number + 1) (offset + first.toList.length + 1) before source) :
    l.ComesFrom markers number offset (first :: before) source := by
  refine ⟨?_, ?_, h.text_eq, h.isKept⟩
  · rw [h.number_eq, List.length_cons]
    omega
  · rw [h.offset_eq, width]
    omega

/-- Every kept line comes from one of the lines. -/
theorem exists_of_mem_keptFrom (markers : List String) :
    ∀ (lines : List String) (number offset : Nat), ∀ l ∈ keptFrom markers number offset lines,
      ∃ before source after, lines = before ++ source :: after ∧
        l.ComesFrom markers number offset before source := by
  intro lines
  induction lines with
  | nil =>
    intro number offset l hl
    cases hl
  | cons first lines ih =>
    intro number offset l hl
    have hlater : l ∈ keptFrom markers (number + 1) (offset + first.toList.length + 1) lines →
        ∃ before source after, first :: lines = before ++ source :: after ∧
          l.ComesFrom markers number offset before source := by
      intro hl
      obtain ⟨before, source, after, rfl, hfrom⟩ := ih _ _ l hl
      exact ⟨first :: before, source, after, rfl, hfrom.cons⟩
    simp only [keptFrom] at hl
    split at hl
    · rename_i hkept
      rcases List.mem_cons.mp hl with rfl | hl
      · exact ⟨[], first, lines, rfl, rfl, rfl, String.toList_ofList, by simpa using hkept⟩
      · exact hlater hl
    · exact hlater hl

/-- The kept lines of a program cut in two. -/
theorem kept_append (markers first second : List String) :
    kept markers (first ++ second) =
      kept markers first ++ (kept markers second).map (shift first.length (width first)) := by
  rw [kept, keptFrom_append, kept, kept, ← keptFrom_shift]

end Line

/-! ### Progress -/

namespace Progress

/-- One run after another, which goes on from the state that the first one left. -/
def andThen (p : Progress) (next : State → Progress) : Progress :=
  if p.stopped then p
  else
    { entries := p.entries ++ (next p.state).entries
      events := p.events ++ (next p.state).events
      state := (next p.state).state
      stopped := (next p.state).stopped }

/-- The same run `n` lines further down. -/
def shift (n : Nat) (p : Progress) : Progress := { p with entries := p.entries.map (.shift n) }

theorem andThen_of_stopped {p : Progress} (h : p.stopped = true) (next : State → Progress) :
    p.andThen next = p := by
  rw [andThen, if_pos h]

theorem andThen_of_not_stopped {p : Progress} (h : p.stopped = false) (next : State → Progress) :
    p.andThen next = ⟨p.entries ++ (next p.state).entries, p.events ++ (next p.state).events,
      (next p.state).state, (next p.state).stopped⟩ := by
  rw [andThen, if_neg (by simp [h])]

theorem andThen_assoc (p : Progress) (next later : State → Progress) :
    (p.andThen next).andThen later = p.andThen fun s => (next s).andThen later := by
  cases hp : p.stopped with
  | true => rw [andThen_of_stopped hp, andThen_of_stopped hp, andThen_of_stopped hp]
  | false =>
    rw [andThen_of_not_stopped hp, andThen_of_not_stopped hp]
    cases hq : (next p.state).stopped with
    | true => rw [andThen_of_stopped rfl, andThen_of_stopped hq, hq]
    | false =>
      rw [andThen_of_not_stopped rfl, andThen_of_not_stopped hq]
      simp only [List.append_assoc]

theorem shift_andThen (n : Nat) (p : Progress) (next : State → Progress) :
    (p.andThen next).shift n = (p.shift n).andThen fun s => (next s).shift n := by
  cases hp : p.stopped with
  | true => rw [andThen_of_stopped hp, andThen_of_stopped (p := p.shift n) hp]
  | false =>
    rw [andThen_of_not_stopped hp, andThen_of_not_stopped (p := p.shift n) hp]
    simp only [shift, List.map_append]

end Progress

namespace Interpreter

variable (i : Interpreter)

/-! ### Kept lines -/

theorem runKept_cons (s : State) (line : Line) (lines : List Line) :
    i.runKept s (line :: lines) = (i.runLine s line).andThen (i.runKept · lines) := rfl

theorem runKept_singleton (s : State) (line : Line) :
    i.runKept s [line] = i.runLine s line := by
  rw [runKept_cons]
  cases h : (i.runLine s line).stopped with
  | true => rw [Progress.andThen_of_stopped h]
  | false =>
    rw [Progress.andThen_of_not_stopped h]
    simp only [runKept, List.append_nil, ← h]

theorem runKept_append (s : State) (first second : List Line) :
    i.runKept s (first ++ second) = (i.runKept s first).andThen (i.runKept · second) := by
  induction first generalizing s with
  | nil => rfl
  | cons line lines ih =>
    simp only [List.cons_append, runKept_cons, ih, Progress.andThen_assoc]

/-- Nothing but its stamps tells where a line stands. -/
theorem runLine_shift (n m : Nat) (s : State) (line : Line) :
    i.runLine s (line.shift n m) = (i.runLine s line).shift n := by
  simp only [runLine, Line.shift, Progress.shift]
  split
  · simp [Entry.shift, Entry.stamp]
  · simp [Entry.shift, Entry.stamp, Function.comp_def]

theorem runKept_shift (n m : Nat) (s : State) (lines : List Line) :
    i.runKept s (lines.map (Line.shift n m)) = (i.runKept s lines).shift n := by
  induction lines generalizing s with
  | nil => rfl
  | cons line lines ih =>
    simp only [List.map_cons, runKept_cons, runLine_shift, ih, Progress.shift_andThen]

/-! ### Lines of source -/

/-- A run of lines of source, with an empty log left empty. -/
def progress (s : State) (lines : List String) : Progress :=
  i.runKept s (Line.kept i.registry.commentMarkers lines)

theorem runLines_eq (s : State) (lines : List String) :
    i.runLines s lines =
      { i.progress s lines with entries := logOf (i.progress s lines).entries } := rfl

theorem progress_append (s : State) (first second : List String) :
    i.progress s (first ++ second) =
      (i.progress s first).andThen fun s' => (i.progress s' second).shift first.length := by
  simp only [progress, Line.kept_append, runKept_append, runKept_shift]

/-- What the evaluation of a line of source comes to; nothing if the line is dropped. -/
def evaluateLine (s : State) (line : String) : Option (Except Fault Outcome) :=
  if Line.isKept i.registry.commentMarkers (Text.trim line.toList) then
    let (name, words) := Line.cut (String.ofList (Text.trim line.toList))
    some (i.evaluate s name (words.map .word)).result
  else none

section

variable {i} {s : State} {line : String}

theorem progress_dropped (h : i.evaluateLine s line = none) :
    i.progress s [line] = ⟨[], [], s, false⟩ := by
  have hdropped : ¬ Line.isKept i.registry.commentMarkers (Text.trim line.toList) := by
    intro hkept
    simp [evaluateLine, hkept] at h
  simp [progress, Line.kept, Line.keptFrom, hdropped, runKept]

/-- A line that is kept runs on its own, as the first one. -/
theorem progress_kept {result : Except Fault Outcome} (h : i.evaluateLine s line = some result) :
    ∃ kept : Line, i.progress s [line] = i.runLine s kept ∧ kept.number = 1 ∧
      (i.evaluate s (Line.cut kept.text).1 ((Line.cut kept.text).2.map .word)).result = result := by
  by_cases hkept : Line.isKept i.registry.commentMarkers (Text.trim line.toList)
  · have hprogress : i.progress s [line] = i.runLine s
        ⟨1, 0 + (line.toList.length - (Text.trimLeft line.toList).length),
          String.ofList (Text.trim line.toList)⟩ := by
      rw [progress, Line.kept, Line.keptFrom, if_pos hkept, Line.keptFrom, runKept_singleton]
    refine ⟨_, hprogress, rfl, ?_⟩
    simpa [evaluateLine, hkept] using h
  · simp [evaluateLine, hkept] at h

theorem progress_fault {fault : Fault} (h : i.evaluateLine s line = some (.error fault)) :
    (i.progress s [line]).entries = [⟨.error, some fault.report, 1⟩] ∧
      (i.progress s [line]).state.env = s.env ∧ (i.progress s [line]).stopped = true := by
  obtain ⟨kept, hrun, hnumber, hresult⟩ := progress_kept h
  rw [hrun, runLine]
  simp [hresult, hnumber]

theorem progress_outcome {outcome : Outcome} (h : i.evaluateLine s line = some (.ok outcome)) :
    (i.progress s [line]).entries = outcome.shown 1 ∧
      (i.progress s [line]).state = s.after outcome ∧
      (i.progress s [line]).stopped = outcome.halt := by
  obtain ⟨kept, hrun, hnumber, hresult⟩ := progress_kept h
  rw [hrun, runLine]
  simp [hresult, hnumber, Outcome.shown, State.after]

end

/-! ### Where a run stops -/

/-- Some line that is evaluated has a fault or asks for a halt. -/
inductive SomeLineStops : State → List String → Prop where
  | fault {s line lines fault} : i.evaluateLine s line = some (.error fault) →
      SomeLineStops s (line :: lines)
  | halt {s line lines outcome} : i.evaluateLine s line = some (.ok outcome) →
      outcome.halt = true → SomeLineStops s (line :: lines)
  | dropped {s line lines} : i.evaluateLine s line = none → SomeLineStops s lines →
      SomeLineStops s (line :: lines)
  | later {s line lines outcome} : i.evaluateLine s line = some (.ok outcome) →
      outcome.halt = false → SomeLineStops (s.after outcome) lines →
      SomeLineStops s (line :: lines)

theorem progress_cons (s : State) (line : String) (lines : List String) :
    i.progress s (line :: lines) =
      (i.progress s [line]).andThen fun s' => (i.progress s' lines).shift 1 :=
  i.progress_append s [line] lines

theorem stopped_progress_iff (s : State) (lines : List String) :
    (i.progress s lines).stopped = true ↔ i.SomeLineStops s lines := by
  induction lines generalizing s with
  | nil =>
    constructor
    · intro h
      cases h
    · intro h
      cases h
  | cons line lines ih =>
    rw [progress_cons]
    rcases hline : i.evaluateLine s line with _ | fault | outcome
    · rw [progress_dropped hline, Progress.andThen_of_not_stopped rfl]
      refine (ih s).trans ⟨.dropped hline, ?_⟩
      intro h
      cases h <;> simp_all
    · have hstopped := (progress_fault hline).2.2
      rw [Progress.andThen_of_stopped hstopped, hstopped]
      exact ⟨fun _ => .fault hline, fun _ => rfl⟩
    · obtain ⟨-, hstate, hstopped⟩ := progress_outcome hline
      cases hhalt : outcome.halt with
      | true =>
        rw [hhalt] at hstopped
        rw [Progress.andThen_of_stopped hstopped, hstopped]
        exact ⟨fun _ => .halt hline hhalt, fun _ => rfl⟩
      | false =>
        rw [hhalt] at hstopped
        rw [Progress.andThen_of_not_stopped hstopped, hstate]
        refine (ih (s.after outcome)).trans ⟨.later hline hhalt, ?_⟩
        intro h
        cases h <;> simp_all

/-! ### Programs cut in two -/

/-- Entries are stamped with lines, which are counted from one. -/
theorem one_le_line_of_mem_progress (s : State) (lines : List String) :
    ∀ e ∈ (i.progress s lines).entries, 1 ≤ e.line := by
  induction lines generalizing s with
  | nil =>
    intro e he
    cases he
  | cons line lines ih =>
    have hfirst : ∀ e ∈ (i.progress s [line]).entries, 1 ≤ e.line := by
      intro e he
      rcases hline : i.evaluateLine s line with _ | fault | outcome
      · simp [progress_dropped hline] at he
      · rw [(progress_fault hline).1, List.mem_singleton] at he
        simp [he]
      · rw [(progress_outcome hline).1, Outcome.shown, List.mem_map] at he
        obtain ⟨e', -, rfl⟩ := he
        simp [Entry.stamp]
    rw [progress_cons]
    cases hstopped : (i.progress s [line]).stopped with
    | true =>
      rw [Progress.andThen_of_stopped hstopped]
      exact hfirst
    | false =>
      rw [Progress.andThen_of_not_stopped hstopped]
      intro e he
      rcases List.mem_append.mp he with he | he
      · exact hfirst e he
      · obtain ⟨e', he', rfl⟩ := List.mem_map.mp he
        have := ih _ e' he'
        simp only [Entry.shift, Entry.stamp]
        omega

theorem nothingSaid_not_mem_progress (s : State) (lines : List String) :
    nothingSaid ∉ (i.progress s lines).entries := by
  intro h
  have := i.one_le_line_of_mem_progress s lines nothingSaid h
  simp [nothingSaid] at this

/-- The log of a program without the entry that stands for an empty one. -/
def said (s : State) (lines : List String) : List Entry :=
  (i.runLines s lines).entries.filter (· ≠ nothingSaid)

theorem said_eq (s : State) (lines : List String) :
    i.said s lines = (i.progress s lines).entries := by
  have hall : ∀ e ∈ (i.progress s lines).entries, e ≠ nothingSaid := by
    rintro e he rfl
    exact i.nothingSaid_not_mem_progress s lines he
  rw [said, runLines_eq, logOf]
  split
  · rename_i hempty
    rw [List.isEmpty_iff.mp hempty]
    simp
  · simpa [List.filter_eq_self] using hall

theorem nothingSaid_mem_runLines_iff (s : State) (lines : List String) :
    nothingSaid ∈ (i.runLines s lines).entries ↔ i.said s lines = [] := by
  rw [said_eq, runLines_eq, logOf]
  split
  · rename_i hempty
    simp [List.isEmpty_iff.mp hempty]
  · rename_i hnonempty
    have := i.nothingSaid_not_mem_progress s lines
    simp_all

section

variable {i} {s : State} {first second : List String}

theorem progress_append_of_stops (h : i.SomeLineStops s first) :
    i.progress s (first ++ second) = i.progress s first := by
  rw [progress_append, Progress.andThen_of_stopped ((i.stopped_progress_iff s first).mpr h)]

theorem entries_state_append (h : ¬ i.SomeLineStops s first) (second : List String) :
    (i.progress s (first ++ second)).entries = i.said s first ++
        (i.said (i.runLines s first).state second).map (.shift first.length) ∧
      (i.progress s (first ++ second)).state =
        (i.progress (i.runLines s first).state second).state := by
  have hstopped : (i.progress s first).stopped = false := by
    rwa [← stopped_progress_iff, Bool.not_eq_true] at h
  rw [progress_append, Progress.andThen_of_not_stopped hstopped, said_eq, said_eq]
  exact ⟨rfl, rfl⟩

/-- A line that stops is as good as the last one. -/
theorem entries_state_append_cons (h : ¬ i.SomeLineStops s first) {line : String}
    (hline : (i.progress (i.runLines s first).state [line]).stopped = true)
    (second : List String) :
    (i.progress s (first ++ line :: second)).entries = i.said s first ++
        (i.progress (i.runLines s first).state [line]).entries.map (.shift first.length) ∧
      (i.progress s (first ++ line :: second)).state =
        (i.progress (i.runLines s first).state [line]).state := by
  have hlast : i.progress (i.runLines s first).state (line :: second) =
      i.progress (i.runLines s first).state [line] := by
    rw [progress_cons, Progress.andThen_of_stopped hline]
  have happend := entries_state_append h (line :: second)
  rwa [i.said_eq _ (line :: second), hlast] at happend

theorem runLines_fault (h : ¬ i.SomeLineStops s first) {line : String} {fault : Fault}
    (hline : i.evaluateLine (i.runLines s first).state line = some (.error fault))
    (second : List String) :
    (i.runLines s (first ++ line :: second)).entries =
        i.said s first ++ [⟨.error, some fault.report, first.length + 1⟩] ∧
      (i.runLines s (first ++ line :: second)).state.env = (i.runLines s first).state.env := by
  obtain ⟨hentries, henv, hstopped⟩ := progress_fault hline
  obtain ⟨hlog, hstate⟩ := entries_state_append_cons h hstopped second
  constructor
  · rw [runLines_eq, hlog, hentries]
    simp [logOf, Entry.shift, Entry.stamp, Int.add_comm]
  · rw [runLines_eq, hstate, henv]

theorem runLines_halt (h : ¬ i.SomeLineStops s first) {line : String} {outcome : Outcome}
    (hline : i.evaluateLine (i.runLines s first).state line = some (.ok outcome))
    (hhalt : outcome.halt = true) (second : List String) :
    (i.runLines s (first ++ line :: second)).entries =
        logOf (i.said s first ++ outcome.shown (first.length + 1)) ∧
      (i.runLines s (first ++ line :: second)).state.env =
        (i.runLines s first).state.env.merge outcome.writes := by
  obtain ⟨hentries, hafter, hstopped⟩ := progress_outcome hline
  rw [hhalt] at hstopped
  obtain ⟨hlog, hstate⟩ := entries_state_append_cons h hstopped second
  constructor
  · rw [runLines_eq, hlog, hentries, Outcome.shown_shift]
  · rw [runLines_eq, hstate, hafter, State.after]

end

/--
**A program can be cut in two anywhere.**  If a line of the first part stops the run, the
second part does not matter.  Otherwise the log is that of the first part and then, with
its stamps moved down by all the lines of the first, that of the second part run from
the state in which the first one ends; the run ends as the second part does, and the log
says that nothing was said exactly if neither part said anything.

A line between the parts that is evaluated and has a fault adds one entry to the log, on
its own number, and leaves the variables alone.  A line that halts adds all it shows and
binds all it writes.
-/
theorem runLines_append (s : State) (first second : List String) :
    (i.SomeLineStops s first → i.runLines s (first ++ second) = i.runLines s first) ∧
    (¬ i.SomeLineStops s first →
      ((i.runLines s (first ++ second)).entries = logOf (i.said s first ++
          (i.said (i.runLines s first).state second).map (.shift first.length)) ∧
        (i.runLines s (first ++ second)).state =
          (i.runLines (i.runLines s first).state second).state ∧
        (nothingSaid ∈ (i.runLines s (first ++ second)).entries ↔
          i.said s first = [] ∧ i.said (i.runLines s first).state second = [])) ∧
      (∀ line fault, i.evaluateLine (i.runLines s first).state line = some (.error fault) →
        (i.runLines s (first ++ line :: second)).entries =
            i.said s first ++ [⟨.error, some fault.report, first.length + 1⟩] ∧
          (i.runLines s (first ++ line :: second)).state.env = (i.runLines s first).state.env) ∧
      (∀ line outcome, i.evaluateLine (i.runLines s first).state line = some (.ok outcome) →
        outcome.halt = true →
        (i.runLines s (first ++ line :: second)).entries =
            logOf (i.said s first ++ outcome.shown (first.length + 1)) ∧
          (i.runLines s (first ++ line :: second)).state.env =
            (i.runLines s first).state.env.merge outcome.writes)) := by
  refine ⟨?_, fun hfirst => ⟨⟨?_, ?_, ?_⟩, ?_, ?_⟩⟩
  · intro hfirst
    rw [runLines_eq, runLines_eq, progress_append_of_stops hfirst]
  · rw [runLines_eq, (entries_state_append hfirst second).1]
  · exact (entries_state_append hfirst second).2
  · rw [nothingSaid_mem_runLines_iff, said_eq, (entries_state_append hfirst second).1]
    simp
  · intro line fault hline
    exact runLines_fault hfirst hline second
  · intro line outcome hline hhalt
    exact runLines_halt hfirst hline hhalt second

/--
Behind four lines of which two are dropped, nested commands bind a name and print before
the outermost command of their line has a fault.
-/
theorem runLines_append_add_print :
    ¬ ({ nesting := 9 } : Interpreter).SomeLineStops ⟨∅, .constant 0⟩
      ["set a 1", "", "// note", "print -a"] ∧
    ({ nesting := 9 } : Interpreter).evaluateLine
        (({ nesting := 9 } : Interpreter).runLines ⟨∅, .constant 0⟩
          ["set a 1", "", "// note", "print -a"]).state
        "add -print -set b x" = some (.error (.notNumeric "true")) ∧
    (({ nesting := 9 } : Interpreter).runLines ⟨∅, .constant 0⟩
        (["set a 1", "", "// note", "print -a"] ++
          "add -print -set b x" :: ["print -a"])).entries =
      [⟨.output, some "1", 4⟩, ⟨.error, some (Fault.notNumeric "true").report, 5⟩] ∧
    (({ nesting := 9 } : Interpreter).runLines ⟨∅, .constant 0⟩
        (["set a 1", "", "// note", "print -a"] ++
          "add -print -set b x" :: ["print -a"])).state.env =
      .ofList [("a", "1")] := by
  have hfirst : ¬ ({ nesting := 9 } : Interpreter).SomeLineStops ⟨∅, .constant 0⟩
      ["set a 1", "", "// note", "print -a"] := by
    rw [← stopped_progress_iff]
    decide +kernel
  have hline : ({ nesting := 9 } : Interpreter).evaluateLine
      (({ nesting := 9 } : Interpreter).runLines ⟨∅, .constant 0⟩
        ["set a 1", "", "// note", "print -a"]).state
      "add -print -set b x" = some (.error (.notNumeric "true")) := by
    decide +kernel
  obtain ⟨hentries, henv⟩ := (runLines_append { nesting := 9 } ⟨∅, .constant 0⟩
    ["set a 1", "", "// note", "print -a"] ["print -a"]).2 hfirst |>.2.1 _ _ hline
  refine ⟨hfirst, hline, hentries.trans ?_, henv.trans ?_⟩
  · decide +kernel
  · decide +kernel

end Interpreter

end Eel
