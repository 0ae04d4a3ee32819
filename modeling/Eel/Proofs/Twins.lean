/-
Operators and the plain commands that do the same.

Most operators have a twin among the plain commands: `a ++ b` and `-add a b` are to mean the
same.  They take different ways through the scan.  An operator leaves the scan on its value
with two gaps behind it; a call has the scan move on, onto the gaps that its words have
left.  The gaps are closed up in both cases, but if the value of an operator is a call itself,
it is made before that.

The two ways meet again if what stands around them is text.  `sweep_operator` and
`sweep_twin` say so: in both forms the scan asks for one evaluation and goes on from the left
end with the value in its place, whatever the value is.  The rest is that the two commands
have handlers that agree, `Builtin.twins_of_mem`.
-/
import Eel.Proofs.RoundTrip

namespace Eel

open Environment (IsProperName)

/-! ### Words that substitution leaves alone -/

/-- Without a dash there is no reference. -/
theorem Substitution.scan_of_not_mem (env : Environment) {cs : List Char} (h : '-' ∉ cs) :
    ∀ fresh : Bool, scan env fresh cs = cs := by
  induction cs with
  | nil =>
    intro fresh
    rw [scan]
  | cons c cs ih =>
    intro fresh
    rw [List.mem_cons, not_or] at h
    have hc : (fresh && c == '-') = false := by simp [Ne.symm h.1]
    rw [scan, hc, if_neg Bool.false_ne_true, ih h.2]

theorem substitute_of_not_mem (env : Environment) {w : String} (h : '-' ∉ w.toList) :
    substitute env w = w := by
  rw [substitute, Substitution.scan_of_not_mem env h, String.ofList_toList]

/-- A reference to a name that is not bound stays as it is. -/
theorem substitute_unbound {env : Environment} {n : String} (hn : IsProperName n)
    (h : env.get? n = none) : substitute env ("-" ++ n) = "-" ++ n := by
  have hscan := Substitution.scan_reference env hn.1 fun c hc => (hn.2 c hc).isReferenceChar
  have hlist : ("-" ++ n).toList = '-' :: n.toList := by simp
  rw [substitute, hlist, hscan, Substitution.resolve, String.ofList_toList, h, ← hlist,
    String.ofList_toList]

/-! ### The results of traced computations -/

namespace Traced

variable {α β : Type}

@[simp] theorem result_bind (x : Traced α) (f : α → Traced β) :
    (x >>= f).result = x.result >>= fun a => (f a).result := by
  cases hx : x.result with
  | error e => rw [bind_of_error f hx]; rfl
  | ok a => rw [bind_of_ok f hx]; rfl

end Traced

/-! ### The two ways through the scan -/

namespace Reduction

variable {r : Registry} (run : Nat → Command → List Slot → Traced Outcome)
variable {front tail : List String}

/-- The scan comes to a call between texts and asks for its value. -/
theorem sweep_to_call (hfront : ∀ f ∈ front, r.classify f = .literal f)
    (htail : ∀ x ∈ tail, r.classify x = .literal x) {w : String} {c : Command}
    (hw : r.classify w = .call c) (parts : List Outcome) :
    sweep r run [] ((front ++ w :: tail).map .word) parts = (do
      let part ← run parts.length c (c.portion front.length (tail.map .word)).1
      sweep r run (.word part.value :: (front.map .word).reverse)
        (afterCall (tail.map .word) (c.portion front.length (tail.map .word)).2)
        (parts ++ [part])) := by
  have halone : r.moveAlone w = .call c := Registry.moveAlone_eq_call.mpr hw
  have hmove : r.move w (tail.map .word) = .call c := by
    cases tail with
    | nil => exact halone
    | cons x tail =>
      have hx := Registry.isOperand_of_literal (htail x (by simp))
      rw [List.map_cons, Registry.move_of_isOperand hx, halone]
  have hdense : Slot.dense (tail.map .word) = tail.map .word := by simp [Slot.dense]
  rw [sweep_literals run hfront (Registry.isOperand_of_call hw), List.append_nil, List.map_cons,
    sweep_call _ _ _ hmove, hdense]
  simp only [List.length_reverse, List.length_map]

/-- Text is no call, and neither is an operator or a marker. -/
theorem moveAlone_of_not_call {w : String} (h : ∀ c, r.classify w ≠ .call c) :
    r.moveAlone w = .advance := by
  cases htoken : r.classify w with
  | call c => exact absurd htoken (h c)
  | literal t => simp only [Registry.moveAlone, htoken]
  | operator c => simp only [Registry.moveAlone, htoken]
  | comment c => simp only [Registry.moveAlone, htoken]

/--
**A value between texts is seen as if the gaps behind it were closed up**, whatever it is.
A call is the one value that is not passed over before that, and it finds the same words
behind it either way.
-/
theorem sweep_any_value (hfront : ∀ f ∈ front, r.classify f = .literal f)
    (htail : ∀ x ∈ tail, r.classify x = .literal x) (value : String) (parts : List Outcome) :
    sweep r run (front.map .word).reverse (.word value :: .vacant :: .vacant :: tail.map .word)
      parts = sweep r run [] ((front ++ value :: tail).map .word) parts := by
  by_cases hcall : ∃ c, r.classify value = .call c
  · obtain ⟨c, hc⟩ := hcall
    have hmove : r.move value (.vacant :: .vacant :: tail.map .word) = .call c :=
      Registry.moveAlone_eq_call.mpr hc
    have hdense : Slot.dense (.vacant :: .vacant :: tail.map .word) = tail.map .word := by
      simp [Slot.dense, Slot.live]
    rw [sweep_call _ _ _ hmove, hdense, sweep_to_call run hfront htail hc]
    simp only [List.length_reverse, List.length_map]
  · have hmove : r.move value (.vacant :: .vacant :: tail.map .word) = .advance :=
      moveAlone_of_not_call fun c hc => hcall ⟨c, hc⟩
    rw [sweep_advance _ _ _ hmove, sweep_gaps]

/-- An operator between texts is replaced by its value. -/
theorem sweep_operator (hfront : ∀ f ∈ front, r.classify f = .literal f)
    (htail : ∀ x ∈ tail, r.classify x = .literal x) {a b : String}
    (ha : r.classify a = .literal a) (hb : r.classify b = .literal b) {o : Command}
    (ho : r.operator? o.name = some o) (parts : List Outcome) :
    sweep r run [] ((front ++ a :: o.name :: b :: tail).map .word) parts = (do
      let part ← run parts.length o [.word a, .word b]
      sweep r run [] ((front ++ part.value :: tail).map .word) (parts ++ [part])) := by
  rw [sweep_to_operator run hfront ha ho hb]
  refine Traced.bind_congr_ok fun part _ => ?_
  exact sweep_any_value run hfront htail part.value (parts ++ [part])

/-- A call of two texts between texts is replaced by its value. -/
theorem sweep_twin (hfront : ∀ f ∈ front, r.classify f = .literal f)
    (htail : ∀ x ∈ tail, r.classify x = .literal x) {a b : String}
    (ha : r.classify a = .literal a) (hb : r.classify b = .literal b) {w : String} {t : Command}
    (ht : r.classify w = .call t) (harity : t.arity = some 2) (parts : List Outcome) :
    sweep r run [] ((front ++ w :: a :: b :: tail).map .word) parts = (do
      let part ← run parts.length t [.word a, .word b]
      sweep r run [] ((front ++ part.value :: tail).map .word) (parts ++ [part])) := by
  have hbehind : ∀ x ∈ a :: b :: tail, r.classify x = .literal x := by
    simpa [ha, hb] using htail
  have hportion : t.portion front.length ((a :: b :: tail).map Slot.word) =
      ([.word a, .word b], tail.map .word) := by
    simp only [Command.portion, harity]
    rfl
  rw [sweep_to_call run hfront hbehind ht, hportion]
  refine Traced.bind_congr_ok fun part _ => ?_
  have hafter : afterCall ((a :: b :: tail).map .word) (tail.map .word) =
      .vacant :: .vacant :: tail.map .word := by
    have htaken : tail.length + 1 + 1 - tail.length = 2 := by omega
    simp [afterCall, htaken, List.replicate_succ]
  rw [hafter, sweep_gaps]

end Reduction

/-! ### Twins -/

/-- An operator and a plain command that do the same with two parameters. -/
structure Twins (r : Registry) (o t : Command) : Prop where
  operator : r.operator? o.name = some o
  plain : r.plain? t.name = some t
  /-- The name of the plain command behind a dash calls it. -/
  call : r.classify ("-" ++ t.name) = .call t
  arity : t.arity = some 2
  undashed : '-' ∉ o.name.toList
  proper : Environment.isName t.name = true
  handlers : ∀ chance params, 2 ≤ params.length → o.handler chance params = t.handler chance params

namespace Twins

variable {r : Registry} {o t : Command} {env : Environment}

/-- Nested evaluations of twins on two inert words come to the same. -/
theorem nested_eq (h : Twins r o t) {a b : String} (ha : Inert r env a) (hb : Inert r env b)
    (nesting : Nat) (chance : Chance) (k : Nat) :
    (nested r env nesting chance k o [.word a, .word b]).result =
      (nested r env nesting chance k t [.word a, .word b]).result := by
  cases nesting with
  | zero => rfl
  | succ n =>
    rw [nested_inert (Registry.get?_of_operator? h.operator) ha hb,
      nested_inert (Registry.get?_of_plain? h.plain) ha hb]
    exact h.handlers (chance.child k) [a, b] (by simp)

/-- **Twins are interchangeable on a line of inert words.** -/
theorem evaluate_eq (h : Twins r o t) (henv : env.get? t.name = none) {a b : String}
    (ha : Inert r env a) (hb : Inert r env b) {front tail : List String}
    (hfront : ∀ w ∈ front, Inert r env w) (htail : ∀ w ∈ tail, Inert r env w)
    (nesting : Nat) (chance : Chance) (name : String) :
    (evaluate r env nesting chance name
        ((front ++ a :: o.name :: b :: tail).map .word)).result =
      (evaluate r env nesting chance name
        ((front ++ ("-" ++ t.name) :: a :: b :: tail).map .word)).result := by
  cases nesting with
  | zero => rfl
  | succ n =>
    cases hc : r.get? name with
    | none => simp only [evaluate, hc]
    | some c =>
      have hsame : front.map (substitute env) = front ∧ tail.map (substitute env) = tail :=
        ⟨settled_of_inert hfront, settled_of_inert htail⟩
      have hreference := substitute_unbound ((Environment.isName_iff _).mp h.proper) henv
      have hinfix : substituteAll env ((front ++ a :: o.name :: b :: tail).map .word) =
          front ++ a :: o.name :: b :: tail := by
        rw [substituteAll_map_word]
        simp [hsame, ha.unchanged, hb.unchanged, substitute_of_not_mem env h.undashed]
      have hprefix : substituteAll env
          ((front ++ ("-" ++ t.name) :: a :: b :: tail).map .word) =
            front ++ ("-" ++ t.name) :: a :: b :: tail := by
        rw [substituteAll_map_word]
        simp [hsame, ha.unchanged, hb.unchanged, hreference]
      have hoperator := Reduction.sweep_operator (nested r env n chance)
        (fun f hf => (hfront f hf).literal) (fun x hx => (htail x hx).literal) ha.literal
        hb.literal h.operator []
      have htwin := Reduction.sweep_twin (nested r env n chance)
        (fun f hf => (hfront f hf).literal) (fun x hx => (htail x hx).literal) ha.literal
        hb.literal h.call h.arity []
      rw [evaluate_succ hc, evaluate_succ hc, hinfix, hprefix, scanned, scanned, hoperator, htwin]
      simp only [Traced.note_bind, Traced.result_bind, h.nested_eq ha hb]

end Twins

/-! ### The built-in operators -/

namespace Builtin

/-- The operators on numbers, each with the name of its twin. -/
def numberTwins : List (String × String) := [("++", "add"), ("**", "mul"), ("^^", "pow")]

/-- The operators on texts that have a twin, each with the name of it. -/
def textTwins : List (String × String) :=
  [("==", "equals"), ("<<", "less"), (">>", "greater"), ("&&", "and"), ("||", "or"),
    ("..", "join")]

/-- The operators that have a twin, each with the name of it. -/
def twins : List (String × String) := numberTwins ++ textTwins

theorem handler_betweenNumbers (glyph name : String) (shortage : Nat → Fault)
    (f : Float → Float → Except Fault Float) (chance : Chance) {params : List String}
    (h : 2 ≤ params.length) :
    (betweenNumbers glyph f).handler chance params =
      (ofNumbers name shortage f).handler chance params := by
  match params, h with
  | a :: b :: more, _ =>
    simp only [betweenNumbers, between, ofNumbers, List.take_succ_cons, List.take_zero,
      List.mapM_cons, List.mapM_nil]
    cases numberOf a with
    | error fault => rfl
    | ok x =>
      cases numberOf b with
      | error fault => rfl
      | ok y =>
        change ((f x y >>= _ : Except Fault String).map _) = (f x y >>= _)
        cases f x y with
        | error fault => rfl
        | ok z => rfl

theorem handler_betweenTexts (glyph name : String) (f : String → String → String)
    (chance : Chance) {params : List String} (h : 2 ≤ params.length) :
    (betweenTexts glyph f).handler chance params = (binary name f).handler chance params := by
  match params, h with
  | a :: b :: more, _ => rfl

/-- Every one of these pairs is a pair of twins. -/
theorem twins_of_mem {glyph name : String} (h : (glyph, name) ∈ twins) :
    ∃ o t, o.name = glyph ∧ t.name = name ∧ Twins registry o t := by
  rcases List.mem_append.mp h with h | h
  · simp only [numberTwins, List.mem_cons, List.not_mem_nil, or_false, Prod.mk.injEq] at h
    rcases h with ⟨rfl, rfl⟩ | ⟨rfl, rfl⟩ | ⟨rfl, rfl⟩ <;>
      exact ⟨_, _, rfl, rfl, rfl, rfl, rfl, rfl, by decide, rfl,
        fun chance _ => handler_betweenNumbers _ _ _ _ chance⟩
  · simp only [textTwins, List.mem_cons, List.not_mem_nil, or_false, Prod.mk.injEq] at h
    rcases h with ⟨rfl, rfl⟩ | ⟨rfl, rfl⟩ | ⟨rfl, rfl⟩ | ⟨rfl, rfl⟩ | ⟨rfl, rfl⟩ | ⟨rfl, rfl⟩ <;>
      exact ⟨_, _, rfl, rfl, rfl, rfl, rfl, rfl, by decide, rfl,
        fun chance _ => handler_betweenTexts _ _ _ chance⟩

/--
**An operator and its twin come to the same.**  Their handlers agree on all parameters but
too few.  And if the name of the twin is not bound, it does not matter to the evaluation of any
command on inert words which of the two forms stands among them, whatever value
comes out and whatever the scan makes of it.
-/
theorem evaluate_infix_eq_call {glyph name : String} (h : (glyph, name) ∈ twins) :
    ∃ o t, registry.operator? glyph = some o ∧ registry.plain? name = some t ∧
      (∀ chance params, 2 ≤ params.length →
        o.handler chance params = t.handler chance params) ∧
      ∀ (env : Environment) (nesting : Nat) (chance : Chance) (outer : String)
        (front tail : List String) (a b : String), env.get? name = none →
        (∀ w ∈ front ++ a :: b :: tail, Inert registry env w) →
        (evaluate registry env nesting chance outer
            ((front ++ a :: glyph :: b :: tail).map .word)).result =
          (evaluate registry env nesting chance outer
            ((front ++ ("-" ++ name) :: a :: b :: tail).map .word)).result := by
  obtain ⟨o, t, rfl, rfl, htwins⟩ := twins_of_mem h
  refine ⟨o, t, htwins.operator, htwins.plain, htwins.handlers, ?_⟩
  intro env nesting chance outer front tail a b henv hinert
  exact htwins.evaluate_eq henv (hinert a (by simp)) (hinert b (by simp))
    (fun w hw => hinert w (by simp [hw])) (fun w hw => hinert w (by simp [hw]))
    nesting chance outer

/--
The value is a call, a comment marker and an operator in turn: the call takes the words behind
it, the marker abandons the command, and the operator is applied to the words around it.
-/
theorem evaluate_infix_eq_call_code :
    (∀ w ∈ ["x", "-", "join", "y", "z", "/", "1", "+", "2"], Inert registry .initial w) ∧
    ((evaluate registry .initial 2 (.constant 0) "print"
        (["x", "-", "..", "join", "y", "z"].map .word)).result = .ok (.say .output "x yz" false) ∧
      (evaluate registry .initial 2 (.constant 0) "print"
        (["x", "-join", "-", "join", "y", "z"].map .word)).result =
          .ok (.say .output "x yz" false)) ∧
    ((evaluate registry .initial 2 (.constant 0) "print"
        (["x", "/", "..", "/", "y"].map .word)).result = .ok {} ∧
      (evaluate registry .initial 2 (.constant 0) "print"
        (["x", "-join", "/", "/", "y"].map .word)).result = .ok {}) ∧
    (evaluate registry .initial 2 (.constant 0) "print"
        (["1", "+", "..", "+", "2"].map .word)).result = .ok (.say .output "3" false) ∧
      (evaluate registry .initial 2 (.constant 0) "print"
        (["1", "-join", "+", "+", "2"].map .word)).result = .ok (.say .output "3" false) := by
  have hinert : ∀ w ∈ ["x", "-", "join", "y", "z", "/", "1", "+", "2"],
      Inert registry .initial w := by
    intro w hw
    simp only [List.mem_cons, List.not_mem_nil, or_false] at hw
    rcases hw with rfl | rfl | rfl | rfl | rfl | rfl | rfl | rfl | rfl <;>
      exact ⟨by decide +kernel, rfl⟩
  have hsub : ∀ ws ⊆ ["x", "-", "join", "y", "z", "/", "1", "+", "2"],
      ∀ w ∈ ws, Inert registry .initial w := fun ws hws w hw => hinert w (hws hw)
  obtain ⟨o, t, -, -, -, hsame⟩ :=
    evaluate_infix_eq_call (show ("..", "join") ∈ twins by simp [twins, textTwins])
  have hcall := hsame .initial 2 (.constant 0) "print" ["x"] ["y", "z"] "-" "join" rfl
    (hsub _ (by simp))
  have hmarker := hsame .initial 2 (.constant 0) "print" ["x"] ["y"] "/" "/" rfl (hsub _ (by simp))
  have hoperator := hsame .initial 2 (.constant 0) "print" ["1"] ["2"] "+" "+" rfl
    (hsub _ (by simp))
  refine ⟨hinert, ⟨?_, hcall.symm.trans ?_⟩, ⟨?_, hmarker.symm.trans ?_⟩, ?_,
    hoperator.symm.trans ?_⟩ <;> decide +kernel

end Builtin

end Eel
