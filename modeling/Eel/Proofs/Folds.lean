/-
Operators on a line are applied from left to right.

A line of operators is a row of groups.  A group is an operand with any number of operators
behind it, each with an operand of its own, and it stands for a left fold: every operator
is applied to the value so far and to its operand.  There is no precedence, and the groups
have nothing to do with each other.  An operator at the very end of the line has no operand
and is left as it is.

The scan comes to this in a roundabout way.  Each application leaves two gaps, and each gap
sends the scan back to the left end, past all the groups that are already done.  What makes
it work is that their values are inert: text that neither substitution nor the scan
has any business with.  `sweep_application` is one such round trip, `sweep_groups` all of
them, with any words behind the groups, and `evaluate_groups` is the evaluation of a line.
-/
import Eel.Builtin.Catalogue
import Eel.Proofs.Merging
import Eel.Proofs.SinglePass

namespace Eel

/-! ### Lines of operators -/

/-- The word is text, and substitution leaves it alone. -/
structure Inert (r : Registry) (env : Environment) (w : String) : Prop where
  unchanged : substitute env w = w
  literal : r.classify w = .literal w

/-- The command stands between two operands, and substitution leaves its name alone. -/
structure Joins (r : Registry) (env : Environment) (c : Command) : Prop where
  unchanged : substitute env c.name = c.name
  known : r.operator? c.name = some c

/-- An operand, and operators with one operand each. -/
structure Group where
  first : String
  pairs : List (Command × String)

namespace Group

def wordsOf (pairs : List (Command × String)) : List String :=
  pairs.flatMap fun p => [p.1.name, p.2]

def words (g : Group) : List String := g.first :: wordsOf g.pairs

/-- The operands are inert and the operators are operators. -/
structure WellFormed (r : Registry) (env : Environment) (g : Group) : Prop where
  first : Inert r env g.first
  pairs : ∀ p ∈ g.pairs, Joins r env p.1 ∧ Inert r env p.2

/-! ### What they stand for -/

/-- A command applied to parameters as they are, with the events of its evaluation. -/
def applied (chance : Chance) (c : Command) (params : List String) : Traced Outcome :=
  ⟨[.executing c.name, .substituted params, .dispatching c.name params chance],
    c.handler chance params⟩

/--
Applies operators from left to right, beginning with the value `acc`: their outcomes, and
the last value.  The first of them is the `k`-th evaluation of its line.
-/
def foldPairs (chance : Chance) (k : Nat) (acc : String) :
    List (Command × String) → Traced (List Outcome × String)
  | [] => pure ([], acc)
  | (c, x) :: pairs => do
    let part ← applied (chance.child k) c [acc, x]
    let later ← foldPairs chance (k + 1) part.value pairs
    pure (part :: later.1, later.2)

/-- Folds one group after the other: all outcomes, and the last value of each group. -/
def foldAll (chance : Chance) (k : Nat) : List Group → Traced (List Outcome × List String)
  | [] => pure ([], [])
  | g :: groups => do
    let done ← foldPairs chance k g.first g.pairs
    let later ← foldAll chance (k + done.1.length) groups
    pure (done.1 ++ later.1, done.2 :: later.2)

/-- The values that `foldPairs` goes through, up to the first fault. -/
def valuesOf (chance : Chance) (k : Nat) (acc : String) : List (Command × String) → List String
  | [] => []
  | (c, x) :: pairs =>
    match c.handler (chance.child k) [acc, x] with
    | .error _ => []
    | .ok part => part.value :: valuesOf chance (k + 1) part.value pairs

/-- The values that `foldAll` goes through, up to the first fault. -/
def valuesOfAll (chance : Chance) (k : Nat) : List Group → List String
  | [] => []
  | g :: groups =>
    valuesOf chance k g.first g.pairs ++
      match (foldPairs chance k g.first g.pairs).result with
      | .error _ => []
      | .ok done => valuesOfAll chance (k + done.1.length) groups

end Group

namespace Traced

theorem bind_bind {α β γ : Type} (x : Traced α) (f : α → Traced β) (g : β → Traced γ) :
    (x >>= f >>= g) = x >>= fun a => f a >>= g := by
  cases hx : x.result with
  | error e => rw [bind_of_error f hx, bind_of_error _ rfl, bind_of_error _ hx]
  | ok a =>
    rw [bind_of_ok f hx, bind_of_ok _ hx]
    cases hf : (f a).result with
    | error e => rw [bind_of_error _ rfl, bind_of_error g hf]
    | ok b => rw [bind_of_ok _ rfl, bind_of_ok g hf, List.append_assoc]

theorem pure_bind {α β : Type} (a : α) (f : α → Traced β) : (pure a >>= f) = f a := rfl

end Traced

/-! ### Moves on inert words -/

namespace Registry

variable {r : Registry} {w next : String}

theorem moveAlone_of_literal (hw : r.classify w = .literal w) : r.moveAlone w = .advance := by
  rw [moveAlone, hw]

/-- The word is neither an operator nor a comment marker, so it does not matter to the word
in front of it. -/
def IsOperand (r : Registry) (w : String) : Prop :=
  ∀ c, r.classify w ≠ .operator c ∧ r.classify w ≠ .comment c

theorem isOperand_of_literal (hw : r.classify w = .literal w) : r.IsOperand w := by
  intro c
  simp [hw]

theorem isOperand_of_call {c : Command} (hw : r.classify w = .call c) : r.IsOperand w := by
  intro d
  simp [hw]

theorem move_of_isOperand (hnext : r.IsOperand next) (w : String) (more : List Slot) :
    r.move w (.word next :: more) = r.moveAlone w := by
  cases htoken : r.classify next with
  | operator c => exact absurd htoken (hnext c).1
  | comment c => exact absurd htoken (hnext c).2
  | literal t => simp only [move, token?, htoken]
  | call c => simp only [move, token?, htoken]

theorem move_of_literal (hw : r.classify w = .literal w) (hnext : r.IsOperand next)
    (more : List Slot) : r.move w (.word next :: more) = .advance := by
  rw [move_of_isOperand hnext, moveAlone_of_literal hw]

theorem classify_of_operator? {c : Command} (h : r.operator? w = some c) :
    r.classify w = .operator c := by
  have hdyadic := (Option.filter_eq_some_iff.mp h).2
  have hcomment : r.comment? w = none := by
    rw [comment?, get?_of_operator? h]
    simp only [Command.isDyadic, Bool.and_eq_true, Bool.not_eq_true'] at hdyadic
    simp [hdyadic.2]
  rw [classify, hcomment, h]

theorem move_of_operator {c : Command} (hc : r.operator? c.name = some c) {x : String}
    (hx : r.classify x = .literal x) (w : String) (tail : List Slot) :
    r.move w (.word c.name :: .word x :: tail) = .operate c (.word x) tail := by
  simp only [move, token?, classify_of_operator? hc, hx]

/-- Text in front of an operator at the end is passed over. -/
theorem move_of_dangling {c : Command} (hc : r.operator? c.name = some c)
    (hw : r.classify w = .literal w) : r.move w [.word c.name] = .advance := by
  simp only [move, token?, classify_of_operator? hc]
  exact moveAlone_of_literal hw

theorem move_dangling {c : Command} (hc : r.operator? c.name = some c) :
    r.move c.name [] = .advance := by
  simp only [move, moveAlone, classify_of_operator? hc]

end Registry

/-! ### One operator -/

namespace Reduction

variable {r : Registry} (run : Nat → Command → List Slot → Traced Outcome)

/-- The scan passes over text up to the next operand. -/
theorem sweep_literals {front : List String} (hfront : ∀ f ∈ front, r.classify f = .literal f)
    {w : String} (hw : r.IsOperand w) (tail : List String) (parts : List Outcome) :
    ∀ passed : List Slot,
      sweep r run passed ((front ++ w :: tail).map .word) parts =
        sweep r run ((front.map .word).reverse ++ passed) ((w :: tail).map .word) parts := by
  induction front with
  | nil =>
    intro passed
    rfl
  | cons f front ih =>
    intro passed
    have hf := hfront f (by simp)
    have hmove : r.move f ((front ++ w :: tail).map .word) = .advance := by
      cases front with
      | nil => exact Registry.move_of_literal hf hw _
      | cons g front =>
        exact Registry.move_of_literal hf (Registry.isOperand_of_literal (hfront g (by simp))) _
    rw [List.cons_append, List.map_cons, sweep_advance _ _ _ hmove,
      ih fun g hg => hfront g (by simp [hg])]
    simp

/-- The scan comes to an operator between two texts and asks for its value. -/
theorem sweep_to_operator {front : List String} (hfront : ∀ f ∈ front, r.classify f = .literal f)
    {acc x : String} (hacc : r.classify acc = .literal acc) {c : Command}
    (hc : r.operator? c.name = some c) (hx : r.classify x = .literal x) (tail : List String)
    (parts : List Outcome) :
    sweep r run [] ((front ++ acc :: c.name :: x :: tail).map .word) parts = (do
      let part ← run parts.length c [.word acc, .word x]
      sweep r run (front.map .word).reverse
        (.word part.value :: .vacant :: .vacant :: tail.map .word) (parts ++ [part])) := by
  rw [sweep_literals run hfront (Registry.isOperand_of_literal hacc), List.append_nil, List.map_cons]
  exact sweep_operate _ _ _ (Registry.move_of_operator hc hx acc _)

/-- From the gaps behind a value the scan starts over. -/
theorem sweep_gaps (front tail : List String) (value : String) (parts : List Outcome) :
    sweep r run (.word value :: (front.map .word).reverse) (.vacant :: .vacant :: tail.map .word)
      parts = sweep r run [] ((front ++ value :: tail).map .word) parts := by
  have hclosed : closeUp (.word value :: (front.map Slot.word).reverse)
      (.vacant :: tail.map .word) = (front ++ value :: tail).map .word := by
    simp [closeUp, Slot.dense, Slot.live]
  rw [sweep_vacant, hclosed]

/-- A value that is text sends the scan back to the left end, with the gaps closed up. -/
theorem sweep_value {value : String} (hvalue : r.classify value = .literal value)
    (front tail : List String) (parts : List Outcome) :
    sweep r run (front.map .word).reverse (.word value :: .vacant :: .vacant :: tail.map .word)
      parts = sweep r run [] ((front ++ value :: tail).map .word) parts := by
  have hmove : r.move value (.vacant :: .vacant :: tail.map .word) = .advance :=
    Registry.moveAlone_of_literal hvalue
  rw [sweep_advance _ _ _ hmove, sweep_gaps]

/--
**One operator after text**: the scan asks for its value, and if that is text it starts
over with the value in the place of the operator and its operands.
-/
theorem sweep_application {front : List String} (hfront : ∀ f ∈ front, r.classify f = .literal f)
    {acc x : String} (hacc : r.classify acc = .literal acc) {c : Command}
    (hc : r.operator? c.name = some c) (hx : r.classify x = .literal x) (tail : List String)
    (parts : List Outcome)
    (hvalue : ∀ part, (run parts.length c [.word acc, .word x]).result = .ok part →
      r.classify part.value = .literal part.value) :
    sweep r run [] ((front ++ acc :: c.name :: x :: tail).map .word) parts = (do
      let part ← run parts.length c [.word acc, .word x]
      sweep r run [] ((front ++ part.value :: tail).map .word) (parts ++ [part])) := by
  rw [sweep_to_operator run hfront hacc hc hx]
  refine Traced.bind_congr_ok fun part hpart => ?_
  exact sweep_value run (hvalue part hpart) front tail (parts ++ [part])

/-- The scan finds nothing to do on text with at most one operator at its end. -/
theorem sweep_finished {dangling : Option Command}
    (hdangling : ∀ d ∈ dangling, r.operator? d.name = some d) (parts : List Outcome) :
    ∀ {values : List String}, (∀ v ∈ values, r.classify v = .literal v) → ∀ passed : List String,
      sweep r run (passed.map .word).reverse
          ((values ++ dangling.toList.map (·.name)).map .word) parts =
        pure (some (passed ++ values ++ dangling.toList.map (·.name), parts)) := by
  intro values
  induction values with
  | nil =>
    intro _ passed
    cases dangling with
    | none =>
      rw [Option.toList_none, List.map_nil, List.append_nil, List.map_nil, sweep_nil]
      simp
    | some d =>
      have hmove := Registry.move_dangling (hdangling d rfl)
      simp only [Option.toList_some, List.map_cons, List.map_nil, List.nil_append]
      rw [sweep_advance _ _ _ hmove, sweep_nil]
      simp [Slot.live]
  | cons v values ih =>
    intro hvalues passed
    have hv := hvalues v (by simp)
    have hmove : r.move v ((values ++ dangling.toList.map (·.name)).map .word) = .advance := by
      cases values with
      | cons w values =>
        exact Registry.move_of_literal hv (Registry.isOperand_of_literal (hvalues w (by simp))) _
      | nil =>
        cases dangling with
        | none => exact Registry.moveAlone_of_literal hv
        | some d => exact Registry.move_of_dangling (hdangling d rfl) hv
    have hlater := ih (fun w hw => hvalues w (by simp [hw])) (passed ++ [v])
    rw [List.cons_append, List.map_cons, sweep_advance _ _ _ hmove]
    simpa using hlater

end Reduction

/-! ### Groups -/

section

variable {r : Registry} {env : Environment}

open Eel.Group Reduction

/-- On words that are text after substitution, an evaluation is nothing but its handler. -/
theorem evaluate_literals {name : String} {c : Command} (hc : r.get? name = some c)
    {slots : List Slot} {words : List String} (hwords : substituteAll env slots = words)
    (hliterals : ∀ w ∈ words, r.classify w = .literal w) (nesting : Nat) (chance : Chance) :
    evaluate r env (nesting + 1) chance name slots =
      ⟨[.executing name, .substituted words, .dispatching name words chance],
        c.handler chance words⟩ := by
  have hscan : scanned r env nesting chance (substituteAll env slots)
      = ⟨[], .ok (some (words, []))⟩ := by
    have hfinished :=
      @sweep_finished r (nested r env nesting chance) none (by simp) [] _ hliterals []
    simp only [Option.toList_none, List.map_nil, List.append_nil, List.nil_append] at hfinished
    rw [hwords]
    exact hfinished
  rw [evaluate_of_scanned_ok hc hscan, conclude_some, hwords]
  cases c.handler chance words with
  | error fault => rfl
  | ok own => simp [Except.map, Outcome.compose_nil]

/-- On inert words a nested evaluation is nothing but its handler. -/
theorem nested_inert {c : Command} (hc : r.Knows c) {a b : String} (ha : Inert r env a)
    (hb : Inert r env b) (nesting : Nat) (chance : Chance) (k : Nat) :
    nested r env (nesting + 1) chance k c [.word a, .word b] = applied (chance.child k) c [a, b] := by
  have hwords : substituteAll env [.word a, .word b] = [a, b] := by
    simp [substituteAll, Slot.live, ha.unchanged, hb.unchanged]
  have hliterals : ∀ v ∈ [a, b], r.classify v = .literal v := by
    simp [ha.literal, hb.literal]
  exact evaluate_literals hc hwords hliterals nesting (chance.child k)

theorem inert_of_foldPairs {chance : Chance} :
    ∀ {pairs : List (Command × String)} {k : Nat} {acc : String} {done : List Outcome × String},
      Inert r env acc → (∀ v ∈ valuesOf chance k acc pairs, Inert r env v) →
      (foldPairs chance k acc pairs).result = .ok done → Inert r env done.2 := by
  intro pairs
  induction pairs with
  | nil =>
    intro k acc done hacc _ hdone
    cases hdone
    exact hacc
  | cons p pairs ih =>
    intro k acc done hacc hvalues hdone
    obtain ⟨c, x⟩ := p
    obtain ⟨part, hpart, hrest, -⟩ := Traced.bind_ok hdone
    obtain ⟨later, hlater, hpure, -⟩ := Traced.bind_ok hrest
    cases hpure
    have hhandler : c.handler (chance.child k) [acc, x] = .ok part := hpart
    simp only [valuesOf, hhandler, List.mem_cons, forall_eq_or_imp] at hvalues
    have hlast := ih hvalues.1 hvalues.2 hlater
    exact hlast

/-- **The scan folds a group from left to right.** -/
theorem sweep_pairs (nesting : Nat) (chance : Chance) {front : List String}
    (hfront : ∀ f ∈ front, r.classify f = .literal f) (tail : List String) :
    ∀ {pairs : List (Command × String)} {acc : String} {parts : List Outcome},
      Inert r env acc → (∀ p ∈ pairs, Joins r env p.1 ∧ Inert r env p.2) →
      (∀ v ∈ valuesOf chance parts.length acc pairs, Inert r env v) →
      sweep r (nested r env (nesting + 1) chance) []
          ((front ++ acc :: (wordsOf pairs ++ tail)).map .word) parts = (do
        let done ← foldPairs chance parts.length acc pairs
        sweep r (nested r env (nesting + 1) chance) []
          ((front ++ done.2 :: tail).map .word) (parts ++ done.1)) := by
  intro pairs
  induction pairs with
  | nil =>
    intro acc parts _ _ _
    simp only [foldPairs, Traced.pure_bind, wordsOf, List.flatMap_nil, List.nil_append,
      List.append_nil]
  | cons p pairs ih =>
    intro acc parts hacc hpairs hvalues
    obtain ⟨c, x⟩ := p
    obtain ⟨hc, hx⟩ := hpairs (c, x) (by simp)
    have hknows : r.Knows c := Registry.get?_of_operator? hc.known
    have hnested := nested_inert hknows hacc hx nesting chance parts.length
    have hinert : ∀ part, (applied (chance.child parts.length) c [acc, x]).result = .ok part →
        Inert r env part.value ∧
          ∀ v ∈ valuesOf chance (parts.length + 1) part.value pairs, Inert r env v := by
      intro part hpart
      have hhandler : c.handler (chance.child parts.length) [acc, x] = .ok part := hpart
      simpa only [valuesOf, hhandler, List.mem_cons, forall_eq_or_imp] using hvalues
    -- One round trip of the scan, and then the same with the value in the place of `acc`.
    have hstep := sweep_application (nested r env (nesting + 1) chance) hfront hacc.literal
      hc.known hx.literal (wordsOf pairs ++ tail) parts fun part hpart =>
        (hinert part (by rwa [hnested] at hpart)).1.literal
    rw [hnested] at hstep
    refine hstep.trans ?_
    simp only [foldPairs, Traced.bind_bind, Traced.pure_bind]
    refine Traced.bind_congr_ok fun part hpart => ?_
    obtain ⟨hvalue, hlater⟩ := hinert part hpart
    have hrest := @ih part.value (parts ++ [part]) hvalue
      (fun p hp => hpairs p (by simp [hp])) (by simpa using hlater)
    simpa using hrest

theorem inert_of_foldAll {chance : Chance} :
    ∀ {groups : List Group} {k : Nat} {done : List Outcome × List String},
      (∀ g ∈ groups, g.WellFormed r env) →
      (∀ v ∈ valuesOfAll chance k groups, Inert r env v) →
      (foldAll chance k groups).result = .ok done → ∀ v ∈ done.2, Inert r env v := by
  intro groups
  induction groups with
  | nil =>
    intro k done _ _ hdone
    cases hdone
    simp
  | cons g groups ih =>
    intro k done hgroups hvalues hdone
    obtain ⟨first, hfirst, hrest, -⟩ := Traced.bind_ok hdone
    obtain ⟨later, hlater, hpure, -⟩ := Traced.bind_ok hrest
    cases hpure
    simp only [valuesOfAll, hfirst, List.mem_append] at hvalues
    have hlast := inert_of_foldPairs (hgroups g (by simp)).first
      (fun v hv => hvalues v (.inl hv)) hfirst
    have hothers := ih (fun g hg => hgroups g (by simp [hg])) (fun v hv => hvalues v (.inr hv)) hlater
    intro v hv
    rcases List.mem_cons.mp hv with rfl | hv
    · exact hlast
    · exact hothers v hv

/-- **The scan folds one group after the other**, whatever stands behind them. -/
theorem sweep_groups (nesting : Nat) (chance : Chance) (tail : List String) :
    ∀ {groups : List Group} {front : List String} {parts : List Outcome},
      (∀ f ∈ front, r.classify f = .literal f) → (∀ g ∈ groups, g.WellFormed r env) →
      (∀ v ∈ valuesOfAll chance parts.length groups, Inert r env v) →
      sweep r (nested r env (nesting + 1) chance) []
          ((front ++ (groups.flatMap words ++ tail)).map .word) parts = (do
        let done ← foldAll chance parts.length groups
        sweep r (nested r env (nesting + 1) chance) []
          ((front ++ (done.2 ++ tail)).map .word) (parts ++ done.1)) := by
  intro groups
  induction groups with
  | nil =>
    intro front parts _ _ _
    simp only [foldAll, Traced.pure_bind, List.flatMap_nil, List.nil_append, List.append_nil]
  | cons g groups ih =>
    intro front parts hfront hgroups hvalues
    have hg := hgroups g (by simp)
    have hown : ∀ v ∈ valuesOf chance parts.length g.first g.pairs, Inert r env v :=
      fun v hv => hvalues v (by simp [valuesOfAll, hv])
    have hgroup := sweep_pairs nesting chance hfront (groups.flatMap words ++ tail) hg.first
      hg.pairs hown
    have hwords : front ++ ((g :: groups).flatMap words ++ tail)
        = front ++ g.first :: (wordsOf g.pairs ++ (groups.flatMap words ++ tail)) := by
      simp [words]
    rw [hwords, hgroup]
    simp only [foldAll, Traced.bind_bind, Traced.pure_bind]
    refine Traced.bind_congr_ok fun done hdone => ?_
    -- The value of this group is one more text that the scan has to pass over.
    have hlast := inert_of_foldPairs hg.first hown hdone
    have hothers : ∀ v ∈ valuesOfAll chance (parts ++ done.1).length groups, Inert r env v := by
      intro v hv
      refine hvalues v ?_
      rw [List.length_append] at hv
      simp [valuesOfAll, hdone, hv]
    have hlater := @ih (front ++ [done.2]) (parts ++ done.1)
      (by simpa [or_imp, forall_and] using ⟨hfront, hlast.literal⟩)
      (fun g hg => hgroups g (by simp [hg])) hothers
    simpa using hlater

/-- Substitution changes nothing on a line of groups. -/
theorem substitute_groups {groups : List Group} {dangling : Option Command}
    (hgroups : ∀ g ∈ groups, g.WellFormed r env) (hdangling : ∀ d ∈ dangling, Joins r env d) :
    ∀ w ∈ groups.flatMap words ++ dangling.toList.map (·.name), substitute env w = w := by
  intro w hw
  rcases List.mem_append.mp hw with hw | hw
  · obtain ⟨g, hg, hw⟩ := List.mem_flatMap.mp hw
    rcases List.mem_cons.mp hw with rfl | hw
    · exact (hgroups g hg).first.unchanged
    · obtain ⟨p, hp, hw⟩ := List.mem_flatMap.mp hw
      obtain ⟨hc, hx⟩ := (hgroups g hg).pairs p hp
      rcases List.mem_cons.mp hw with rfl | hw
      · exact hc.unchanged
      · rw [List.mem_singleton.mp hw]
        exact hx.unchanged
  · obtain ⟨d, hd, rfl⟩ := List.mem_map.mp hw
    exact (hdangling d (by simpa using hd)).unchanged

/--
**A line of operators means left folds.**  On a row of groups, with or without an operator
at its end, the evaluation of a command folds one group after the other and stops with the
first fault of an operator, if there is one.  Otherwise the handler gets the last value of
each group and the operator at the end, and its outcome is composed with those of the
operators in the order in which they stand on the line.
-/
theorem evaluate_groups {name : String} {c : Command} (hc : r.get? name = some c)
    (nesting : Nat) (chance : Chance) {groups : List Group} {dangling : Option Command}
    (hgroups : ∀ g ∈ groups, g.WellFormed r env) (hdangling : ∀ d ∈ dangling, Joins r env d)
    (hvalues : ∀ v ∈ valuesOfAll chance 0 groups, Inert r env v) :
    evaluate r env (nesting + 2) chance name
        ((groups.flatMap words ++ dangling.toList.map (·.name)).map .word) = (do
      .note (.executing name)
      .note (.substituted (groups.flatMap words ++ dangling.toList.map (·.name)))
      let done ← foldAll chance 0 groups
      .note (.dispatching name (done.2 ++ dangling.toList.map (·.name)) chance)
      let own ← .ofExcept (c.handler chance (done.2 ++ dangling.toList.map (·.name)))
      pure (.compose done.1 own)) := by
  have hwords : substituteAll env
      ((groups.flatMap words ++ dangling.toList.map (·.name)).map .word)
      = groups.flatMap words ++ dangling.toList.map (·.name) := by
    rw [substituteAll_map_word]
    exact (List.map_congr_left (substitute_groups hgroups hdangling)).trans (List.map_id _)
  have hscan := @sweep_groups r env nesting chance (dangling.toList.map (·.name)) groups [] []
    (by simp) hgroups hvalues
  rw [evaluate_succ hc, hwords]
  refine congrArg (_ >>= ·) (funext fun _ => congrArg (_ >>= ·) (funext fun _ => ?_))
  rw [scanned, ← List.nil_append (groups.flatMap words ++ _), hscan, Traced.bind_bind]
  refine Traced.bind_congr_ok fun done hdone => ?_
  have hinert := inert_of_foldAll hgroups hvalues hdone
  have hend : sweep r (nested r env (nesting + 1) chance) []
      ((done.2 ++ dangling.toList.map (·.name)).map .word) done.1
      = pure (some (done.2 ++ dangling.toList.map (·.name), done.1)) :=
    sweep_finished _ (fun d hd => (hdangling d hd).known) done.1
      (fun v hv => (hinert v hv).literal) []
  rw [List.nil_append, List.nil_append, hend, Traced.pure_bind]
  rfl

end

/-- Two groups, the first with operators of what would be two ranks, and an operator left over. -/
def sumAndJoin : List Group :=
  [⟨"1", [(Builtin.betweenNumbers "++" fun x y => .ok (x + y), "2"),
      (Builtin.betweenNumbers "**" fun x y => .ok (x * y), "2")]⟩,
    ⟨"a", [(Builtin.betweenTexts ".." (· ++ ·), "b")]⟩]

/-- One and two are added up first, although a product stands behind them. -/
theorem evaluate_groups_sumAndJoin :
    (∀ g ∈ sumAndJoin, g.WellFormed Builtin.registry .initial) ∧
    (∀ v ∈ Group.valuesOfAll (.constant 0) 0 sumAndJoin, Inert Builtin.registry .initial v) ∧
    (evaluate Builtin.registry .initial 2 (.constant 0) "print"
      (["1", "++", "2", "**", "2", "a", "..", "b", "=="].map .word)).result =
        .ok (.say .output "6 ab ==" false) := by
  have hgroups : ∀ g ∈ sumAndJoin, g.WellFormed Builtin.registry .initial := by
    intro g hg
    simp only [sumAndJoin, List.mem_cons, List.not_mem_nil, or_false] at hg
    rcases hg with rfl | rfl
    · refine ⟨⟨by decide +kernel, rfl⟩, ?_⟩
      intro p hp
      simp only [List.mem_cons, List.not_mem_nil, or_false] at hp
      rcases hp with rfl | rfl
      · exact ⟨⟨by decide +kernel, rfl⟩, ⟨by decide +kernel, rfl⟩⟩
      · exact ⟨⟨by decide +kernel, rfl⟩, ⟨by decide +kernel, rfl⟩⟩
    · refine ⟨⟨by decide +kernel, rfl⟩, ?_⟩
      intro p hp
      rw [List.mem_singleton.mp hp]
      exact ⟨⟨by decide +kernel, rfl⟩, ⟨by decide +kernel, rfl⟩⟩
  have hvalues : ∀ v ∈ Group.valuesOfAll (.constant 0) 0 sumAndJoin,
      Inert Builtin.registry .initial v := by
    have hlist : Group.valuesOfAll (.constant 0) 0 sumAndJoin = ["3", "6", "ab"] := by
      decide +kernel
    intro v hv
    simp only [hlist, List.mem_cons, List.not_mem_nil, or_false] at hv
    rcases hv with rfl | rfl | rfl
    · exact ⟨by decide +kernel, rfl⟩
    · exact ⟨by decide +kernel, rfl⟩
    · exact ⟨by decide +kernel, rfl⟩
  have hdangling : ∀ d ∈ some (Builtin.betweenTexts "==" fun a b => Builtin.truthText (a == b)),
      Joins Builtin.registry .initial d := by
    intro d hd
    rw [← Option.some.inj hd]
    exact ⟨by decide +kernel, rfl⟩
  have hprint : Builtin.registry.get? "print" = some (Builtin.logging "print" .output false) := rfl
  refine ⟨hgroups, hvalues, ?_⟩
  have hline := evaluate_groups hprint 0 (.constant 0) hgroups hdangling hvalues
  refine (congrArg Traced.result hline).trans ?_
  decide +kernel

end Eel
