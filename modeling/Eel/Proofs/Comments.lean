/-
A comment marker abandons its command, and everything the command did is dropped.

A marker counts where an operator or the right operand of an operator could stand.  The
operators in front of it have been applied by then, each with its own entries, writes and
halt.  None of that survives: the outcome of an abandoned command is the outcome of nothing,
unless one of the operators had a fault, which is then the fault of the command.  What stands
behind the marker is never looked at.

The operators in front of the marker are folded as on any other line, by `sweep_groups`.  What
is left in front of it is then text with at most one operator behind it, and
`sweep_comment` says that the scan gives up there.
-/
import Eel.Proofs.Folds

namespace Eel

/-! ### Moves in front of a marker -/

namespace Registry

variable {r : Registry} {m : String} {c : Command}

theorem classify_of_comment? (h : r.comment? m = some c) : r.classify m = .comment c := by
  rw [classify, h]

theorem move_of_comment (h : r.comment? m = some c) (w : String) (tail : List Slot) :
    r.move w (.word m :: tail) = .abandon := by
  simp only [move, token?, classify_of_comment? h]

/-- A marker in the place of a right operand is seen from the left operand. -/
theorem move_of_operator_comment {d : Command} (hd : r.operator? d.name = some d)
    (h : r.comment? m = some c) (w : String) (tail : List Slot) :
    r.move w (.word d.name :: .word m :: tail) = .abandon := by
  simp only [move, token?, classify_of_operator? hd, classify_of_comment? h]

end Registry

/-! ### The scan gives up -/

namespace Reduction

/-- **The scan gives up at the last text in front of a marker**, also over an operator. -/
theorem sweep_comment {r : Registry} (run : Nat → Command → List Slot → Traced Outcome)
    {values : List String} (hne : values ≠ []) (hvalues : ∀ v ∈ values, r.classify v = .literal v)
    {dangling : Option Command} (hdangling : ∀ d ∈ dangling, r.operator? d.name = some d)
    {m : String} {c : Command} (hm : r.comment? m = some c) (later : List String)
    (parts : List Outcome) :
    sweep r run [] ((values ++ (dangling.toList.map (·.name) ++ m :: later)).map .word) parts =
      pure none := by
  obtain ⟨front, w, rfl⟩ : ∃ front w, values = front ++ [w] :=
    ⟨_, _, (List.dropLast_concat_getLast hne).symm⟩
  have hfront : ∀ f ∈ front, r.classify f = .literal f := fun f hf => hvalues f (by simp [hf])
  have hw : r.classify w = .literal w := hvalues w (by simp)
  have hmove : r.move w ((dangling.toList.map (·.name) ++ m :: later).map .word) = .abandon := by
    cases dangling with
    | none => exact Registry.move_of_comment hm w _
    | some d => exact Registry.move_of_operator_comment (hdangling d rfl) hm w _
  rw [List.append_assoc, List.singleton_append,
    sweep_literals run hfront (Registry.isOperand_of_literal hw), List.map_cons]
  exact sweep_abandon _ _ _ hmove

end Reduction

/-! ### The line of an abandoned command -/

section

variable {r : Registry} {env : Environment}

open Eel.Group Reduction

/-- There is one last value for each group. -/
theorem Group.length_foldAll {chance : Chance} :
    ∀ {groups : List Group} {k : Nat} {done : List Outcome × List String},
      (foldAll chance k groups).result = .ok done → done.2.length = groups.length := by
  intro groups
  induction groups with
  | nil =>
    intro k done hdone
    cases hdone
    rfl
  | cons g groups ih =>
    intro k done hdone
    obtain ⟨first, -, hrest, -⟩ := Traced.bind_ok hdone
    obtain ⟨later, hlater, hpure, -⟩ := Traced.bind_ok hrest
    cases hpure
    exact congrArg (· + 1) (ih hlater)

/-- The scan of a line with a marker on it folds what stands in front of the marker. -/
theorem scanned_comment (nesting : Nat) (chance : Chance) {groups : List Group}
    (hne : groups ≠ []) {dangling : Option Command} (hgroups : ∀ g ∈ groups, g.WellFormed r env)
    (hdangling : ∀ d ∈ dangling, Joins r env d)
    (hvalues : ∀ v ∈ valuesOfAll chance 0 groups, Inert r env v) {m : String} {c : Command}
    (hm : r.comment? m = some c) (later : List String) :
    scanned r env (nesting + 1) chance
        (groups.flatMap words ++ (dangling.toList.map (·.name) ++ m :: later)) = (do
      let _ ← foldAll chance 0 groups
      pure none) := by
  have hscan := @sweep_groups r env nesting chance (dangling.toList.map (·.name) ++ m :: later)
    groups [] [] (by simp) hgroups hvalues
  rw [List.nil_append] at hscan
  refine hscan.trans (Traced.bind_congr_ok fun done hdone => ?_)
  have hlast : done.2 ≠ [] := by
    intro hempty
    have hlength := length_foldAll hdone
    rw [hempty, List.length_nil, eq_comm, List.length_eq_zero_iff] at hlength
    exact hne hlength
  have hinert := inert_of_foldAll hgroups hvalues hdone
  exact sweep_comment _ hlast (fun v hv => (hinert v hv).literal)
    (fun d hd => (hdangling d hd).known) hm later _

/--
**A comment marker abandons its command.**  On a line of groups, with or without an operator
at their end, and then a word that substitution makes a marker, the evaluation of a command
folds the groups and drops what comes of them.  The handler of the command is not
applied.  So the outcome is that of nothing, or the first fault of an operator if there is
one, and what stands behind the marker has no part in it.
-/
theorem evaluate_comment {name : String} {c : Command} (hc : r.get? name = some c)
    (nesting : Nat) (chance : Chance) (groups : List Group) (dangling : Option Command)
    (m : String) (later : List String) (hne : groups ≠ [])
    (hgroups : ∀ g ∈ groups, g.WellFormed r env) (hdangling : ∀ d ∈ dangling, Joins r env d)
    (hvalues : ∀ v ∈ valuesOfAll chance 0 groups, Inert r env v) {marker : Command}
    (hm : r.comment? (substitute env m) = some marker) :
    evaluate r env (nesting + 2) chance name
        ((groups.flatMap words ++ dangling.toList.map (·.name) ++ m :: later).map .word) = (do
      .note (.executing name)
      .note (.substituted (groups.flatMap words ++ dangling.toList.map (·.name) ++
        (m :: later).map (substitute env)))
      let _ ← foldAll chance 0 groups
      .note (.abandoned name)
      pure {}) ∧
    (evaluate r env (nesting + 2) chance name
        ((groups.flatMap words ++ dangling.toList.map (·.name) ++ m :: later).map .word)).result =
      (foldAll chance 0 groups).result.map fun _ => {} := by
  have hwords : substituteAll env
      ((groups.flatMap words ++ dangling.toList.map (·.name) ++ m :: later).map .word) =
        groups.flatMap words ++ dangling.toList.map (·.name) ++
          (m :: later).map (substitute env) := by
    have hsame := List.map_congr_left (substitute_groups hgroups hdangling)
    rw [substituteAll_map_word, List.map_append, hsame, List.map_id']
  have hscan := scanned_comment nesting chance hne hgroups hdangling hvalues hm
    (later.map (substitute env))
  have htrace : evaluate r env (nesting + 2) chance name
      ((groups.flatMap words ++ dangling.toList.map (·.name) ++ m :: later).map .word) = (do
        .note (.executing name)
        .note (.substituted (groups.flatMap words ++ dangling.toList.map (·.name) ++
          (m :: later).map (substitute env)))
        let _ ← foldAll chance 0 groups
        .note (.abandoned name)
        pure {}) := by
    rw [evaluate_succ hc, hwords, List.append_assoc, List.map_cons, hscan]
    simp only [Traced.bind_bind, Traced.pure_bind, conclude]
  refine ⟨htrace, ?_⟩
  rw [htrace, Traced.note_bind, Traced.note_bind]
  cases hfold : (foldAll chance 0 groups).result with
  | error fault => rw [Traced.bind_of_error _ hfold]; rfl
  | ok done => rw [Traced.bind_of_ok _ hfold]; rfl

end

/-- An operator that logs an error, writes and halts, unless it is given nothing. -/
def alarm : Command where
  name := "!!"
  arity := some 2
  isOperator := true
  handler _ params :=
    if "" ∈ params then .error .outOfDomain
    else .ok { value := Text.joinWith "" params, log := [⟨.error, some "alarm", 0⟩],
               writes := .singleton "x" "1", halt := true }

/-- Alarms, a comment marker, and a command to be abandoned. -/
def alarms : Registry :=
  ⟨[alarm, Builtin.marker "//", Builtin.logging "print" .output false], true⟩

/--
An alarm is raised and another one is left without its operand, since a variable has a
marker there.  No more than the trace tells of it.  If an alarm has a fault, so has the line.
-/
theorem evaluate_comment_alarm :
    (evaluate alarms (.ofList [("m", "//")]) 2 (.constant 0) "print"
      (["a", "!!", "b", "!!", "-m", "c", "-print", "d"].map .word)).result = .ok {} ∧
    (evaluate alarms (.ofList [("m", "//")]) 2 (.constant 0) "print"
      (["a", "!!", "b", "c", "!!", "", "//", "d"].map .word)).result = .error .outOfDomain := by
  have hprint : alarms.get? "print" = some (Builtin.logging "print" .output false) := rfl
  have hinert : ∀ w ∈ ["a", "b", "c", "", "ab"], Inert alarms (.ofList [("m", "//")]) w := by
    intro w hw
    simp only [List.mem_cons, List.not_mem_nil, or_false] at hw
    rcases hw with rfl | rfl | rfl | rfl | rfl <;> exact ⟨by decide +kernel, rfl⟩
  have halarm : Joins alarms (.ofList [("m", "//")]) alarm := ⟨by decide +kernel, rfl⟩
  have hgroup : ∀ {x y : String}, Inert alarms (.ofList [("m", "//")]) x →
      Inert alarms (.ofList [("m", "//")]) y →
      (Group.mk x [(alarm, y)]).WellFormed alarms (.ofList [("m", "//")]) := by
    intro x y hx hy
    refine ⟨hx, List.forall_mem_singleton.mpr ⟨halarm, hy⟩⟩
  have hfirst := hgroup (hinert "a" (by simp)) (hinert "b" (by simp))
  have hsecond := hgroup (hinert "c" (by simp)) (hinert "" (by simp))
  have hvalue : Group.valuesOfAll (.constant 0) 0 [⟨"a", [(alarm, "b")]⟩] = ["ab"] := by
    decide +kernel
  have hvalues : Group.valuesOfAll (.constant 0) 0 [⟨"a", [(alarm, "b")]⟩, ⟨"c", [(alarm, "")]⟩] =
      ["ab"] := by decide +kernel
  have hmarker : alarms.comment? "//" = some (Builtin.marker "//") := rfl
  have hreference : "//" = substitute (.ofList [("m", "//")]) "-m" := by decide +kernel
  have hplain : "//" = substitute (.ofList [("m", "//")]) "//" := by decide +kernel
  obtain ⟨-, hdropped⟩ := evaluate_comment hprint 0 (.constant 0)
    [⟨"a", [(alarm, "b")]⟩] (some alarm) "-m" ["c", "-print", "d"] (by simp)
    (List.forall_mem_singleton.mpr hfirst)
    (fun d hd => Option.some.inj hd ▸ halarm)
    (by rw [hvalue]; exact List.forall_mem_singleton.mpr (hinert "ab" (by simp)))
    (hreference ▸ hmarker)
  obtain ⟨-, hfault⟩ := evaluate_comment hprint 0 (.constant 0)
    [⟨"a", [(alarm, "b")]⟩, ⟨"c", [(alarm, "")]⟩] none "//" ["d"] (by simp)
    (List.forall_mem_cons.mpr ⟨hfirst, List.forall_mem_singleton.mpr hsecond⟩) (by simp)
    (by rw [hvalues]; exact List.forall_mem_singleton.mpr (hinert "ab" (by simp)))
    (hplain ▸ hmarker)
  refine ⟨hdropped.trans ?_, hfault.trans ?_⟩
  · decide +kernel
  · decide +kernel

end Eel
