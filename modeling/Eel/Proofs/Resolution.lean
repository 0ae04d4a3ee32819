/-
Which commands a run can come to.

Names are looked up in two places.  The first word of a line is looked up as it stands, and
there it may be unknown.  Inside a line, a word has to be recognised as an operator or as a
call before anything is evaluated, and what is evaluated then is the name of the command
that was recognised.  So the second look-up always finds it, and it never finds a comment
marker.  A marker cannot be the first word of a line either: such a line is dropped, since
its text starts with the marker.

Two things follow.  The handlers of comment markers are never applied: no dispatch on record
is one of them, and a run is the same whatever these handlers are.  And the complaint about an
unknown command is always about the first word of a line.
-/
import Eel.Proofs.ControlFlow
import Eel.Proofs.Nesting
import Eel.Proofs.Stopping

namespace Eel

/-! ### The first word of a line -/

namespace Text

/-- The first piece of a text is where the text starts. -/
theorem isPrefix_of_pieces {sep : Char} {cs p : List Char} {ps : List (List Char)}
    (h : pieces sep cs = p :: ps) : p <+: cs := by
  have hjoin := join_pieces sep cs
  rw [h] at hjoin
  cases ps with
  | nil => exact ⟨[], by simpa [join] using hjoin⟩
  | cons q qs => exact ⟨[sep] ++ join [sep] (q :: qs), by simpa [join] using hjoin⟩

end Text

namespace Line

/-- The word of a line that names its command. -/
def first (l : Line) : String := (cut l.text).1

theorem first_isPrefix (l : Line) : l.first.toList <+: l.text.toList := by
  unfold first cut Text.split
  cases h : Text.pieces ' ' l.text.toList with
  | nil => exact absurd h (Text.pieces_ne_nil _ _)
  | cons p ps => simpa using Text.isPrefix_of_pieces h

/-- A kept line does not start with a marker. -/
theorem not_isPrefix_of_mem_kept {markers lines : List String} {l : Line}
    (hl : l ∈ kept markers lines) {m : String} (hm : m ∈ markers) :
    ¬ m.toList <+: l.text.toList := by
  intro hprefix
  obtain ⟨before, source, after, -, hfrom⟩ := exists_of_mem_keptFrom _ _ _ _ l hl
  have hkept := hfrom.isKept
  simp only [isKept, Bool.and_eq_true, Bool.not_eq_true', List.any_eq_false] at hkept
  exact hkept.2 m hm (List.isPrefixOf_iff_prefix.mpr hprefix)

end Line

namespace Registry

theorem name_mem_commentMarkers {r : Registry} {name : String} {c : Command}
    (hc : r.get? name = some c) (hcomment : c.isComment = true) : name ∈ r.commentMarkers := by
  rw [← name_of_get? hc]
  exact List.mem_map_of_mem (List.mem_filter.mpr ⟨List.mem_of_find?_eq_some hc, hcomment⟩)

/-- **The first word of a kept line is no comment marker.** -/
theorem isComment_of_mem_kept {r : Registry} {lines : List String} {l : Line}
    (hl : l ∈ Line.kept r.commentMarkers lines) {c : Command} (hc : r.get? l.first = some c) :
    c.isComment = false := by
  by_contra hcomment
  rw [Bool.not_eq_false] at hcomment
  exact Line.not_isPrefix_of_mem_kept hl (name_mem_commentMarkers hc hcomment) l.first_isPrefix

/-- The name is known, and not as a comment marker. -/
def Resolves (r : Registry) (name : String) : Prop :=
  ∃ c, r.get? name = some c ∧ c.isComment = false

end Registry

/-! ### Commands inside a line -/

namespace Reduction

variable {r : Registry} {run : Nat → Command → List Slot → Traced Outcome}

/-- What a scan asks for is known under its name and no comment marker. -/
theorem Asks.resolves {t : Tape} {c : Command} {args : List Slot} {next : String → Tape}
    (h : Asks r t c args next) : r.Resolves c.name := by
  have hknows : r.get? c.name = some c := h.knows
  cases h with
  | operate passed hmove => exact ⟨c, hknows, Registry.isComment_of_move_operate hmove⟩
  | call passed hmove => exact ⟨c, hknows, Registry.isComment_of_move_call hmove⟩

/-- What holds of all events of the evaluations that can be asked for holds of those of a stage. -/
theorem events_of_reaches {P : Event → Prop}
    (hrun : ∀ k c args, r.Resolves c.name → ∀ e ∈ (run k c args).events, P e)
    {words : List String} {s : Stage} (h : Reaches r run (.start words) s) :
    ∀ e ∈ s.events, P e := by
  induction h with
  | refl => simp [Stage.start]
  | tail _ hstep ih =>
    cases hstep with
    | quiet parts events hquiet => exact ih
    | asked events hasks hpart =>
      intro e he
      rcases List.mem_append.mp he with he | he
      · exact ih e he
      · exact hrun _ _ _ hasks.resolves e he

end Reduction

theorem events_of_scanned {r : Registry} {env : Environment} {nesting : Nat} {chance : Chance}
    {P : Event → Prop}
    (hnested : ∀ k c args, r.Resolves c.name →
      ∀ e ∈ (nested r env nesting chance k c args).events, P e) (words : List String) :
    ∀ e ∈ (scanned r env nesting chance words).events, P e := by
  obtain ⟨s, hreaches, hstops⟩ := scanned_stops r env nesting chance words
  have hevents := Reduction.events_of_reaches hnested hreaches
  generalize scanned r env nesting chance words = left at hstops
  cases hstops with
  | ends parts events hends => exact hevents
  | fault events hasks hrun =>
    intro e he
    rcases List.mem_append.mp he with he | he
    · exact hevents e he
    · exact hnested _ _ _ hasks.resolves e he

/-- If the event is a dispatch, it is one of a known command that is no comment marker. -/
def Event.Resolves (r : Registry) : Event → Prop
  | dispatching name _ _ => r.Resolves name
  | _ => True

theorem conclude_resolves {r : Registry} {name : String} (hname : r.Resolves name)
    (chance : Chance) (c : Command) (res : Option (List String × List Outcome)) :
    ∀ e ∈ (conclude chance name c res).events, e.Resolves r := by
  cases res with
  | none =>
    intro e he
    obtain rfl : e = .abandoned name := by simpa [conclude, Traced.note_bind] using he
    trivial
  | some found =>
    obtain ⟨params, parts⟩ := found
    rw [conclude_some]
    intro e he
    rw [List.mem_singleton.mp he]
    exact hname

/-- **The handlers that an evaluation applies are those of known commands, comment markers
excepted**, if its own command is no comment marker. -/
theorem evaluate_resolves {r : Registry} {env : Environment} :
    ∀ {nesting : Nat} {chance : Chance} {name : String} {slots : List Slot},
      (∀ c, r.get? name = some c → c.isComment = false) →
      ∀ e ∈ (evaluate r env nesting chance name slots).events, e.Resolves r := by
  intro nesting
  induction nesting with
  | zero =>
    intro chance name slots _ e he
    cases he
  | succ n ih =>
    intro chance name slots hname e he
    cases hc : r.get? name with
    | none =>
      rw [evaluate, hc] at he
      cases he
    | some c =>
      have hnested : ∀ k d args, r.Resolves d.name →
          ∀ e ∈ (nested r env n chance k d args).events, e.Resolves r := by
        intro k d args hd
        obtain ⟨d', hd', hcomment⟩ := hd
        refine ih fun c hc => ?_
        cases hd'.symm.trans hc
        exact hcomment
      have hscan := events_of_scanned hnested (substituteAll env slots)
      have hend := conclude_resolves ⟨c, hc, hname c hc⟩ chance c
      rw [evaluate_succ hc, Traced.note_bind, Traced.note_bind] at he
      rcases List.mem_cons.mp he with rfl | he
      · trivial
      rcases List.mem_cons.mp he with rfl | he
      · trivial
      cases hresult : (scanned r env n chance (substituteAll env slots)).result with
      | error fault =>
        rw [Traced.bind_of_error _ hresult] at he
        exact hscan e he
      | ok res =>
        rw [Traced.bind_of_ok _ hresult] at he
        rcases List.mem_append.mp he with he | he
        · exact hscan e he
        · exact hend res e he

/--
In the course of the first job under a limit on the nesting, the second one is done under
another limit.  It is nested in the first, directly or deeper inside.
-/
inductive Opens (r : Registry) (env : Environment) : Nat → Job → Nat → Job → Prop
  | direct {n : Nat} {j k : Job} (h : Nests r env (evaluate r env n) j k) :
      Opens r env (n + 1) j n k
  | deeper {m n : Nat} {j k l : Job} (hopens : Opens r env m j (n + 1) k)
      (h : Nests r env (evaluate r env n) k l) : Opens r env m j n l

theorem Nests.resolves {r : Registry} {env : Environment} {E : Evaluator} {j k : Job}
    (h : Nests r env E j k) : r.Resolves k.name := by
  cases h with
  | mk hc hreaches hasks => exact hasks.resolves

/-- Every nested evaluation is one of a known command, and no comment marker. -/
theorem Opens.resolves {r : Registry} {env : Environment} {m n : Nat} {j k : Job}
    (h : Opens r env m j n k) : r.Resolves k.name := by
  cases h with
  | direct h => exact h.resolves
  | deeper _ h => exact h.resolves

/-- Only the evaluation of an unknown command is nothing but a complaint about it. -/
theorem evaluate_eq_commandNotFound_iff {r : Registry} {env : Environment} {nesting : Nat}
    {chance : Chance} {name : String} {slots : List Slot} :
    evaluate r env (nesting + 1) chance name slots = pure (commandNotFound name) ↔
      r.get? name = none := by
  constructor
  · intro h
    by_contra hknown
    obtain ⟨c, hc⟩ := Option.ne_none_iff_exists'.mp hknown
    rw [evaluate_succ hc, Traced.note_bind] at h
    cases congrArg Traced.events h
  · intro hc
    rw [evaluate, hc]

/-! ### Runs -/

/-- What a turn sets out to do. -/
def Turn.job (t : Turn) : Job := ⟨t.state.chance, t.line.first, (Line.cut t.line.text).2.map .word⟩

namespace Interpreter

variable (i : Interpreter)

theorem evaluation_eq (t : Turn) :
    i.evaluation t =
      Eel.evaluate i.registry t.state.env i.nesting t.job.chance t.job.name t.job.slots := rfl

theorem line_mem_of_mem_turns {s : State} {lines : List Line} :
    ∀ t ∈ i.turns s lines, t.line ∈ lines := by
  intro t ht
  exact (i.map_line_turns_isPrefix s lines).subset (List.mem_map_of_mem ht)

/-- Everything that a run applies is known and no comment marker. -/
theorem runKept_resolves {lines : List Line}
    (hlines : ∀ l ∈ lines, ∀ c, i.registry.get? l.first = some c → c.isComment = false)
    (s : State) : ∀ e ∈ (i.runKept s lines).events, e.Resolves i.registry := by
  intro e he
  rw [(i.runKept_turns s lines).2] at he
  obtain ⟨t, ht, he⟩ := List.mem_flatMap.mp he
  rw [evaluation_eq] at he
  exact evaluate_resolves (hlines t.line (i.line_mem_of_mem_turns t ht)) e he

end Interpreter

/-! ### Other handlers for comment markers -/

namespace Registry

variable {r : Registry} {handler : Command → Handler}

theorem commentMarkers_withHandlers (r : Registry) (handler : Command → Handler) :
    (r.withHandlers handler).commentMarkers = r.commentMarkers := by
  simp only [commentMarkers, withHandlers, List.filter_map, List.map_map]
  rfl

/-- The handlers of comment markers do not matter to the evaluation of another command. -/
theorem evaluate_withHandlers (hhandler : ∀ c, c.isComment = false → handler c = c.handler)
    {name : String} (hname : ∀ c, r.get? name = some c → c.isComment = false)
    (env : Environment) (nesting : Nat) (chance : Chance) (slots : List Slot) :
    evaluate (r.withHandlers handler) env nesting chance name slots =
      evaluate r env nesting chance name slots := by
  have hsame : ∀ name c d, r.get? name = some c → (r.withHandlers handler).get? name = some d →
      c.isComment = false → c.AnswersLike Eq d := by
    intro name c d hc hd hcomment chance params
    rw [get?_withHandlers, hc] at hd
    cases hd
    simp only [hhandler c hcomment]
    cases c.handler chance params with
    | error fault => exact .error fault
    | ok o => exact .ok rfl
  have hcongruence : Outcome.Congruence Eq :=
    ⟨fun h => congrArg _ h, fun _ => rfl, fun h h' => congrArg₂ _ h h'⟩
  refine (Traced.Corresponds.eq ?_).symm
  exact evaluate_corresponds (sameForm_withHandlers r handler) hcongruence hsame env nesting
    chance name slots fun c d hc hd => hsame name c d hc hd (hname c hc)

end Registry

namespace Interpreter

variable {i j : Interpreter}

theorem events_runLine (i : Interpreter) (t : Turn) :
    (i.runLine t.state t.line).events = (i.evaluation t).events := by
  cases hresult : (i.evaluation t).result with
  | error fault => simp only [runLine_of_error hresult]
  | ok outcome => simp only [runLine_of_ok hresult]

/-- A line runs as its evaluation goes. -/
theorem runLine_congr {t : Turn} (h : j.evaluation t = i.evaluation t) :
    j.runLine t.state t.line = i.runLine t.state t.line := by
  have hentries : j.entriesOf t = i.entriesOf t := by
    simp only [entriesOf, h]
  cases hresult : (i.evaluation t).result with
  | error fault =>
    simp only [runLine_of_error hresult, runLine_of_error (h ▸ hresult), h, hentries]
  | ok outcome => simp only [runLine_of_ok hresult, runLine_of_ok (h ▸ hresult), h, hentries]

theorem runKept_congr {lines : List Line}
    (h : ∀ l ∈ lines, ∀ s, j.evaluation ⟨s, l⟩ = i.evaluation ⟨s, l⟩) :
    ∀ s, j.runKept s lines = i.runKept s lines := by
  induction lines with
  | nil =>
    intro s
    rfl
  | cons line lines ih =>
    intro s
    have hfirst := runLine_congr (h line List.mem_cons_self s)
    have hlater := funext (ih fun l hl => h l (List.mem_cons_of_mem line hl))
    simp only at hfirst
    rw [runKept_cons, runKept_cons, hfirst, hlater]

/-- A run is the same whatever the handlers of comment markers are. -/
theorem runLines_withHandlers (i : Interpreter) {handler : Command → Handler}
    (hhandler : ∀ c, c.isComment = false → handler c = c.handler) (s : State)
    (lines : List String) :
    { i with registry := i.registry.withHandlers handler }.runLines s lines =
      i.runLines s lines := by
  have hkept := @runKept_congr i { i with registry := i.registry.withHandlers handler }
    (Line.kept i.registry.commentMarkers lines) (fun l hl s =>
      Registry.evaluate_withHandlers hhandler (fun c hc => Registry.isComment_of_mem_kept hl hc)
        s.env i.nesting s.chance _) s
  simp only [runLines, Registry.commentMarkers_withHandlers, hkept]

/-- A line complains about its command, and does nothing else, if and only if it is unknown. -/
theorem runLine_eq_complaint_iff (hnesting : 0 < i.nesting) (t : Turn) :
    i.runLine t.state t.line =
        ⟨[⟨.error, some ("Command \"" ++ t.line.first ++ "\" Not Found."), t.line.number⟩], [],
          { t.state with chance := t.state.chance.next }, true⟩ ↔
      i.registry.get? t.line.first = none := by
  obtain ⟨n, hn⟩ := Nat.exists_eq_succ_of_ne_zero (Nat.pos_iff_ne_zero.mp hnesting)
  have hiff := @evaluate_eq_commandNotFound_iff i.registry t.state.env n t.state.chance t.line.first
    t.job.slots
  have hevaluation : i.evaluation t =
      Eel.evaluate i.registry t.state.env (n + 1) t.state.chance t.line.first t.job.slots := by
    rw [evaluation_eq, hn]
    rfl
  rw [← hevaluation] at hiff
  constructor
  · intro h
    by_contra hknown
    obtain ⟨c, hc⟩ := Option.ne_none_iff_exists'.mp hknown
    have hevents := i.events_runLine t
    rw [h, hevaluation, evaluate_succ hc, Traced.note_bind] at hevents
    cases hevents
  · intro hc
    have hpure := hiff.mpr hc
    have hresult : (i.evaluation t).result = .ok (commandNotFound t.line.first) := by
      rw [hpure]
      rfl
    have hentries : i.entriesOf t =
        [⟨.error, some ("Command \"" ++ t.line.first ++ "\" Not Found."), t.line.number⟩] := by
      simp only [entriesOf, hresult]
      rfl
    rw [runLine_of_ok hresult, hentries, hpure]
    rfl

/--
**Name resolution inside a run is closed.**  Every handler that a run applies is one of a
known command that is no comment marker, and with other handlers for the comment markers the
run is the same.  A run evaluates its turns, and whatever evaluations are nested in these,
at any depth, are of commands known under the name that is evaluated, so none of them is
a complaint about an unknown command.  A kept line is such a complaint, one error entry and
a halt, without an event or a write, if and only if its first word is not a known name.
-/
theorem resolution_closed (i : Interpreter) (hnesting : 0 < i.nesting) (s : State)
    (lines : List String) {kept : List Line}
    (hkept : kept = Line.kept i.registry.commentMarkers lines) :
    (∀ name params chance, .dispatching name params chance ∈ (i.runLines s lines).events →
      ∃ c, i.registry.get? name = some c ∧ c.isComment = false) ∧
    (∀ handler : Command → Handler, (∀ c, c.isComment = false → handler c = c.handler) →
      { i with registry := i.registry.withHandlers handler }.runLines s lines =
        i.runLines s lines) ∧
    ((i.runLines s lines).events =
        (i.turns s kept).flatMap fun t => (Eel.evaluate i.registry t.state.env i.nesting
          t.job.chance t.job.name t.job.slots).events) ∧
    (∀ t ∈ i.turns s kept, ∀ n job, Opens i.registry t.state.env i.nesting t.job n job →
      (∃ c, i.registry.get? job.name = some c ∧ c.name = job.name ∧ c.isComment = false) ∧
      Eel.evaluate i.registry t.state.env n job.chance job.name job.slots ≠
        pure (commandNotFound job.name)) ∧
    ∀ line ∈ kept, ∀ state, i.runLine state line =
        ⟨[⟨.error, some ("Command \"" ++ line.first ++ "\" Not Found."), line.number⟩], [],
          { state with chance := state.chance.next }, true⟩ ↔
      i.registry.get? line.first = none := by
  refine ⟨?_, fun handler hhandler => i.runLines_withHandlers hhandler s lines, ?_, ?_, ?_⟩
  · intro name params chance hevent
    have hlines : ∀ l ∈ Line.kept i.registry.commentMarkers lines, ∀ c,
        i.registry.get? l.first = some c → c.isComment = false :=
      fun l hl c hc => Registry.isComment_of_mem_kept hl hc
    exact i.runKept_resolves hlines s _ hevent
  · rw [hkept]
    exact (i.runKept_turns s _).2
  · intro t _ n job hopens
    obtain ⟨c, hc, hcomment⟩ := hopens.resolves
    refine ⟨⟨c, hc, Registry.name_of_get? hc, hcomment⟩, ?_⟩
    cases n with
    | zero =>
      intro h
      cases congrArg Traced.result h
    | succ n =>
      intro h
      rw [evaluate_eq_commandNotFound_iff.mp h] at hc
      cases hc
  · intro line _ state
    exact runLine_eq_complaint_iff hnesting ⟨state, line⟩

/--
Of three lines the first has a call nested in it, the second is dropped as a comment, and the
third has a first word that nobody has defined, so that the call in it is not evaluated.
-/
theorem resolution_closed_shout :
    0 < ({ nesting := 9 } : Interpreter).nesting ∧
    [⟨1, 0, "print -join a b"⟩, ⟨3, 28, "shout -print x"⟩] =
      Line.kept ({ nesting := 9 } : Interpreter).registry.commentMarkers
        ["print -join a b", "// -print x", "shout -print x"] ∧
    ({ registry := Builtin.registry.withHandlers fun c chance params =>
        if c.isComment then .error .outOfDomain else c.handler chance params
       nesting := 9 } :
      Interpreter).runLines ⟨∅, .constant 0⟩ ["print -join a b", "// -print x", "shout -print x"] =
        ({ nesting := 9 } : Interpreter).runLines ⟨∅, .constant 0⟩
          ["print -join a b", "// -print x", "shout -print x"] ∧
    (∃ c, Builtin.registry.get? "join" = some c ∧ c.name = "join" ∧ c.isComment = false) ∧
    ({ nesting := 9 } : Interpreter).runLine ⟨∅, .constant 0⟩ ⟨3, 28, "shout -print x"⟩ =
      ⟨[⟨.error, some "Command \"shout\" Not Found.", 3⟩], [], ⟨∅, (Chance.constant 0).next⟩,
        true⟩ := by
  have hkept : [⟨1, 0, "print -join a b"⟩, ⟨3, 28, "shout -print x"⟩] =
      Line.kept ({ nesting := 9 } : Interpreter).registry.commentMarkers
        ["print -join a b", "// -print x", "shout -print x"] := by
    decide +kernel
  obtain ⟨-, hhandlers, -, hnested, hunknown⟩ :=
    resolution_closed { nesting := 9 } (by decide) ⟨∅, .constant 0⟩ _ hkept
  refine ⟨by decide, hkept, hhandlers _ ?_, ?_, ?_⟩
  · intro c hcomment
    simp [hcomment]
  · have hturn : ⟨⟨∅, .constant 0⟩, ⟨1, 0, "print -join a b"⟩⟩ ∈
        ({ nesting := 9 } : Interpreter).turns ⟨∅, .constant 0⟩
          [⟨1, 0, "print -join a b"⟩, ⟨3, 28, "shout -print x"⟩] := List.mem_cons_self
    -- The scan of the first line asks for the value of `join` at its first step.
    have hwords : substituteAll ∅ (["-join", "a", "b"].map .word) = ["-join", "a", "b"] := by
      decide +kernel
    have hmove : Builtin.registry.move "-join" (["a", "b"].map .word) =
        .call (Builtin.binary "join" (· ++ ·)) := rfl
    have hasks := Reduction.Asks.call [] hmove
    have hstart : Reduction.Reaches Builtin.registry
        (nestedBy (Eel.evaluate Builtin.registry ∅ 8) (.constant 0))
        (.start (substituteAll ∅ (["-join", "a", "b"].map .word)))
        (.start ["-join", "a", "b"]) := by
      rw [hwords]
      exact .refl
    have hprint : Builtin.registry.get? "print" = some (Builtin.logging "print" .output false) :=
      rfl
    have hopens := Opens.direct (Nests.mk hprint hstart hasks)
    exact (hnested _ hturn 8 _ hopens).1
  · exact (hunknown ⟨3, 28, "shout -print x"⟩ (by simp) ⟨∅, .constant 0⟩).mpr (by decide +kernel)

end Interpreter

end Eel
