/-
Variables are never lost, and new ones are properly named.

A line can bind variables in any of its commands, under names that were put together by
operators, taken from variables or returned by other commands.  All of them go through
one handler, which checks the name that it is given and binds nothing if the check fails.
So whatever an evaluation writes is written under proper names, and a run, however it ends,
only adds such names to those that were bound before.

`Outcome.NamesProperly` is what the handlers keep to, and `evaluate_keeps` hands it on to all
evaluations.  `Environment.GrowsInto` is the invariant of a run: what one line does to the
variables, and therefore what any number of lines does.
-/
import Eel.Proofs.Merging
import Eel.Proofs.Stopping

namespace Eel

/-! ### Names -/

namespace Environment

/-- The characters of a proper name: ASCII letters and digits, underscore and dash. -/
def IsNameLetter (c : Char) : Prop :=
  ('A' ≤ c ∧ c ≤ 'Z') ∨ ('a' ≤ c ∧ c ≤ 'z') ∨ ('0' ≤ c ∧ c ≤ '9') ∨ c = '_' ∨ c = '-'

/-- A proper name has such characters only, and at least one. -/
def IsProperName (s : String) : Prop := s.toList ≠ [] ∧ ∀ c ∈ s.toList, IsNameLetter c

theorem isNameChar_iff (c : Char) : isNameChar c = true ↔ IsNameLetter c := by
  have hupper : c.isUpper = true ↔ 'A' ≤ c ∧ c ≤ 'Z' := decide_eq_true_iff
  have hlower : c.isLower = true ↔ 'a' ≤ c ∧ c ≤ 'z' :=
    Bool.and_eq_true_iff.trans (and_congr decide_eq_true_iff decide_eq_true_iff)
  have hdigit : c.isDigit = true ↔ '0' ≤ c ∧ c ≤ '9' :=
    Bool.and_eq_true_iff.trans (and_congr decide_eq_true_iff decide_eq_true_iff)
  have halphanum : c.isAlphanum = true ↔
      (c.isUpper = true ∨ c.isLower = true) ∨ c.isDigit = true :=
    Bool.or_eq_true_iff.trans (or_congr_left Bool.or_eq_true_iff)
  rw [isNameChar, Bool.or_eq_true, Bool.or_eq_true, halphanum, hupper, hlower, hdigit,
    beq_iff_eq, beq_iff_eq, IsNameLetter]
  simp only [or_assoc]

/-- The check of a declared name accepts exactly the proper ones. -/
theorem isName_iff (s : String) : isName s = true ↔ IsProperName s := by
  simp only [isName, Bool.and_eq_true, Bool.not_eq_true', List.isEmpty_eq_false_iff,
    List.all_eq_true, isNameChar_iff, IsProperName]

end Environment

namespace Bindings

@[simp] theorem names_empty : (∅ : Bindings).names = [] := rfl

theorem mem_names_insert {b : Bindings} {name value m : String} :
    m ∈ (b.insert name value).names ↔ m ∈ b.names ∨ m = name := by
  rw [names_insert]
  split
  · rename_i hname
    refine ⟨.inl, ?_⟩
    rintro (hm | rfl)
    · exact hm
    · exact hname
  · simp

theorem mem_names_insertAll {ps : List (String × String)} {m : String} :
    ∀ {b : Bindings}, m ∈ (b.insertAll ps).names ↔ m ∈ b.names ∨ m ∈ ps.map Prod.fst := by
  induction ps with
  | nil =>
    intro b
    simp [insertAll]
  | cons p rest ih =>
    intro b
    have hlater := ih (b := b.insert p.1 p.2)
    rw [mem_names_insert, or_assoc, ← List.mem_cons] at hlater
    exact hlater

/-- A merge binds what either side binds. -/
theorem mem_names_merge {a b : Bindings} {m : String} :
    m ∈ (a.merge b).names ↔ m ∈ a.names ∨ m ∈ b.names :=
  mem_names_insertAll

theorem names_singleton (name value : String) : (singleton name value).names = [name] := rfl

end Bindings

open Environment (IsProperName)

/-! ### What evaluations write -/

/-- The outcome writes under proper names only. -/
def Outcome.NamesProperly (o : Outcome) : Prop := ∀ m ∈ o.writes.names, IsProperName m

namespace Outcome

theorem namesProperly_of_writes_eq {o : Outcome} (h : o.writes = ∅) : o.NamesProperly := by
  simp [NamesProperly, h]

theorem NamesProperly.append {a b : Outcome} (ha : a.NamesProperly) (hb : b.NamesProperly) :
    (a.append b).NamesProperly := by
  intro m hm
  rcases Bindings.mem_names_merge.mp hm with hm | hm
  · exact ha m hm
  · exact hb m hm

end Outcome

/-- All outcomes that the command's handler gives write under proper names. -/
def Command.NamesProperly (c : Command) : Prop :=
  ∀ chance params o, c.handler chance params = .ok o → o.NamesProperly

theorem Command.Computes.namesProperly {c : Command} (h : c.Computes) : c.NamesProperly := by
  intro chance params o ho
  obtain ⟨value, rfl⟩ := h chance params o ho
  exact Outcome.namesProperly_of_writes_eq rfl

namespace Builtin

theorem setVariable_proper (chance : Chance) {params : List String}
    (h : IsProperName (params.headD "")) :
    setVariable chance params =
      .ok { value := Text.joinWith " " params.tail,
            writes := .singleton (params.headD "") (Text.joinWith " " params.tail) } :=
  if_pos ((Environment.isName_iff _).mpr h)

/-- A name that is not proper is refused, and so is a missing one. -/
theorem setVariable_improper (chance : Chance) {params : List String}
    (h : ¬ IsProperName (params.headD "")) :
    setVariable chance params =
      .ok (.fail ("Invalid variable name \"" ++ params.headD "" ++ "\".")) :=
  if_neg (mt (Environment.isName_iff _).mp h)

theorem namesProperly_set : Command.NamesProperly { name := "set", handler := setVariable } := by
  intro chance params o ho
  change setVariable chance params = .ok o at ho
  by_cases h : IsProperName (params.headD "")
  · rw [setVariable_proper chance h] at ho
    cases ho
    intro m hm
    rw [Bindings.names_singleton, List.mem_singleton] at hm
    rwa [hm]
  · rw [setVariable_improper chance h] at ho
    cases ho
    exact Outcome.namesProperly_of_writes_eq rfl

theorem namesProperly_logging (name : String) (kind : Kind) (halt : Bool) :
    (logging name kind halt).NamesProperly := by
  intro chance params o ho
  cases ho
  exact Outcome.namesProperly_of_writes_eq rfl

theorem namesProperly_marker (glyph : String) : (marker glyph).NamesProperly := by
  intro chance params o ho
  cases ho
  exact Outcome.namesProperly_of_writes_eq rfl

/-- Every built-in command writes under proper names. -/
theorem namesProperly_of_mem_commands : ∀ c ∈ commands, c.NamesProperly := by
  intro c hc
  simp only [commands, List.mem_append] at hc
  rcases hc with (((hc | hc) | hc) | hc) | hc
  · simp only [speech, List.mem_cons, List.not_mem_nil, or_false] at hc
    rcases hc with rfl | rfl | rfl | rfl | rfl
    · exact namesProperly_logging _ _ _
    · exact namesProperly_logging _ _ _
    · exact namesProperly_logging _ _ _
    · exact namesProperly_logging _ _ _
    · exact namesProperly_set
  · exact (computes_numeric c hc).namesProperly
  · exact (computes_textual c hc).namesProperly
  · exact (computes_operators c hc).namesProperly
  · simp only [markers, List.mem_cons, List.not_mem_nil, or_false] at hc
    rcases hc with rfl | rfl | rfl <;> exact namesProperly_marker _

/-- **Evaluations with the built-in commands write under proper names.** -/
theorem namesProperly_evaluate {env : Environment} {nesting : Nat} {chance : Chance}
    {name : String} {slots : List Slot} {o : Outcome}
    (h : (evaluate registry env nesting chance name slots).result = .ok o) : o.NamesProperly :=
  evaluate_keeps (P := Outcome.NamesProperly) (Outcome.namesProperly_of_writes_eq rfl)
    (fun _ _ ha hb => ha.append hb) (fun _ => Outcome.namesProperly_of_writes_eq rfl)
    namesProperly_of_mem_commands env nesting chance name slots o h

/-- A `set` that is refused adds nothing to what the commands nested in it write. -/
theorem writes_of_improper {env : Environment} {nesting : Nat} {chance : Chance}
    {slots : List Slot} {params : List String} {parts : List Outcome}
    (hscan : (scanned registry env nesting chance (substituteAll env slots)).result =
      .ok (some (params, parts))) (himproper : ¬ IsProperName (params.headD "")) :
    ∃ o, (evaluate registry env (nesting + 1) chance "set" slots).result = .ok o ∧
      o.writes = parts.foldl (fun w part => w.merge part.writes) ∅ ∧ o.halt = true := by
  have hset : registry.get? "set" = some { name := "set", handler := setVariable } := rfl
  refine ⟨.compose parts (.fail ("Invalid variable name \"" ++ params.headD "" ++ "\".")),
    ?_, ?_, ?_⟩
  · rw [evaluate_of_scanned_ok hset (Traced.ext rfl hscan), conclude_some]
    simp only [setVariable_improper chance himproper]
    rfl
  · rw [Outcome.compose_eq_total, Outcome.writes_total, List.foldl_append]
    rfl
  · rw [Outcome.halt_compose]
    simp [Outcome.fail, Outcome.say]

end Builtin

/-! ### What runs do to the variables -/

/-- No name is lost, and every new one is proper. -/
structure Environment.GrowsInto (before after : Environment) : Prop where
  keeps : ∀ m ∈ before.names, m ∈ after.names
  adds : ∀ m ∈ after.names, m ∈ before.names ∨ IsProperName m

namespace Environment.GrowsInto

theorem refl (env : Environment) : env.GrowsInto env := ⟨fun _ hm => hm, fun _ hm => .inl hm⟩

theorem trans {a b c : Environment} (hab : a.GrowsInto b) (hbc : b.GrowsInto c) :
    a.GrowsInto c := by
  refine ⟨fun m hm => hbc.keeps m (hab.keeps m hm), fun m hm => ?_⟩
  rcases hbc.adds m hm with hm | hproper
  · exact hab.adds m hm
  · exact .inr hproper

theorem merge (env : Environment) {o : Outcome} (h : o.NamesProperly) :
    env.GrowsInto (env.merge o.writes) := by
  refine ⟨fun m hm => Bindings.mem_names_merge.mpr (.inl hm), fun m hm => ?_⟩
  rcases Bindings.mem_names_merge.mp hm with hm | hm
  · exact .inl hm
  · exact .inr (h m hm)

end Environment.GrowsInto

namespace Interpreter

variable {i : Interpreter} (hi : i.registry = Builtin.registry)

include hi

theorem namesProperly_of_evaluate {s : State} {name : String} {slots : List Slot} {o : Outcome}
    (h : (i.evaluate s name slots).result = .ok o) : o.NamesProperly := by
  unfold evaluate at h
  rw [hi] at h
  exact Builtin.namesProperly_evaluate h

/-- **One line keeps the variables**, also if it halts or has a fault. -/
theorem growsInto_runLine (t : Turn) :
    t.state.env.GrowsInto (i.runLine t.state t.line).state.env := by
  cases hresult : (i.evaluation t).result with
  | error fault =>
    have henv : (i.runLine t.state t.line).state.env = t.state.env := by
      simp only [runLine_of_error hresult]
    rw [henv]
    exact .refl t.state.env
  | ok outcome =>
    have henv : (i.runLine t.state t.line).state.env = t.state.env.merge outcome.writes := by
      simp only [runLine_of_ok hresult, State.after]
    rw [henv]
    exact .merge t.state.env (namesProperly_of_evaluate hi hresult)

theorem growsInto_runKept (s : State) (lines : List Line) :
    s.env.GrowsInto (i.runKept s lines).state.env := by
  induction lines generalizing s with
  | nil => exact .refl s.env
  | cons line lines ih =>
    have hfirst := growsInto_runLine hi ⟨s, line⟩
    rw [runKept_cons]
    cases hstopped : (i.runLine s line).stopped with
    | true =>
      rw [Progress.andThen_of_stopped hstopped]
      exact hfirst
    | false =>
      rw [Progress.andThen_of_not_stopped hstopped]
      exact hfirst.trans (ih _)

end Interpreter

/--
**Variables are never lost, and new ones are properly named.**  With the built-in commands,
every program runs, and after the run, however it ended, all names are still bound that were
bound before it, and all others are made of ASCII letters and digits, underscores and
dashes.  The same goes for everything that evaluations write.  A `set` whose name is missing
or not of this kind halts and writes nothing but what the commands nested in it do.
-/
theorem Interpreter.names_run (i : Interpreter) (hi : i.registry = Builtin.registry) :
    (∀ (s : State) (source : Source) (lines : List String), source.lines = .ok lines →
      ∃ p, i.run s source = .ok p ∧ (∀ m ∈ s.env.names, m ∈ p.state.env.names) ∧
        ∀ m ∈ p.state.env.names, m ∈ s.env.names ∨ IsProperName m) ∧
    (∀ s name slots o, (i.evaluate s name slots).result = .ok o →
      ∀ m ∈ o.writes.names, IsProperName m) ∧
    ∀ env nesting chance slots params parts,
      (scanned i.registry env nesting chance (substituteAll env slots)).result =
        .ok (some (params, parts)) → ¬ IsProperName (params.headD "") →
      ∃ o, (Eel.evaluate i.registry env (nesting + 1) chance "set" slots).result = .ok o ∧
        o.writes = parts.foldl (fun w part => w.merge part.writes) ∅ ∧ o.halt = true := by
  refine ⟨?_, fun s name slots o h => namesProperly_of_evaluate hi h, ?_⟩
  · intro s source lines hlines
    have hgrows : s.env.GrowsInto (i.runLines s lines).state.env :=
      growsInto_runKept hi s (Line.kept i.registry.commentMarkers lines)
    refine ⟨i.runLines s lines, ?_, hgrows.keeps, hgrows.adds⟩
    rw [run, hlines]
    rfl
  · intro env nesting chance slots params parts hscan himproper
    rw [hi] at hscan ⊢
    exact Builtin.writes_of_improper hscan himproper

/--
Names that are put together by commands, a name that was never proper but was there before,
and a `set` that is refused after the one nested in it was not.
-/
theorem Interpreter.names_run_computed :
    (Source.single (.text "set -join a b 1\nprint -set c -ab\nset a!b -set d 2\nset e 3")).lines =
      .ok ["set -join a b 1", "print -set c -ab", "set a!b -set d 2", "set e 3"] ∧
    (∃ p, ({ nesting := 9 } : Interpreter).run ⟨.ofList [("x!", "0")], .constant 0⟩
        (.single (.text "set -join a b 1\nprint -set c -ab\nset a!b -set d 2\nset e 3")) = .ok p ∧
      p.state.env.entries = [("x!", "0"), ("ab", "1"), ("c", "1"), ("d", "2")] ∧
      (∀ m ∈ ["x!"], m ∈ p.state.env.names) ∧
      ∀ m ∈ p.state.env.names, m ∈ ["x!"] ∨ IsProperName m) ∧
    ¬ IsProperName (["a!b", "2"].headD "") ∧
    ∃ o, (Eel.evaluate Builtin.registry ∅ 2 (.constant 0) "set"
        (["a!b", "-set", "d", "2"].map .word)).result = .ok o ∧
      o.writes = .singleton "d" "2" ∧ o.halt = true := by
  have hlines : (Source.single
      (.text "set -join a b 1\nprint -set c -ab\nset a!b -set d 2\nset e 3")).lines =
        .ok ["set -join a b 1", "print -set c -ab", "set a!b -set d 2", "set e 3"] :=
    congrArg Except.ok (by decide +kernel)
  obtain ⟨hrun, -, hset⟩ := names_run { nesting := 9 } rfl
  obtain ⟨p, hp, hkeeps, hadds⟩ := hrun ⟨.ofList [("x!", "0")], .constant 0⟩ _ _ hlines
  have himproper : ¬ IsProperName (["a!b", "2"].headD "") := by
    rw [← Environment.isName_iff]
    decide +kernel
  have hscan : (scanned Builtin.registry ∅ 1 (.constant 0)
      (substituteAll ∅ (["a!b", "-set", "d", "2"].map .word))).result =
        .ok (some (["a!b", "2"], [{ value := "2", writes := .singleton "d" "2" }])) := by
    decide +kernel
  refine ⟨hlines, ⟨p, hp, ?_, hkeeps, hadds⟩, himproper,
    hset ∅ 1 (.constant 0) _ _ _ hscan himproper⟩
  rw [run, hlines] at hp
  cases hp
  decide +kernel

end Eel
