/-
What one step of an evaluation can do.

Everything proved about evaluations goes through this file.  The scan has one equation
for each of its moves, so later proofs follow `sweep_induction` and never open
the definition of `sweep`.  The commands that a move hands on are known to the registry
under their own names, which is why a nested evaluation always finds its command.
`evaluate_ok` takes a finished evaluation apart: the two events at its start, a scan
that ended, and either a comment that abandoned it or a handler that answered.
-/
import Eel.Evaluation

namespace Eel

namespace Traced

variable {α β : Type}

/-- Results can be compared, so that statements about fixed words can be evaluated. -/
instance decidableEqResult [DecidableEq α] : DecidableEq (Except Fault α)
  | .ok a, .ok b => decidable_of_iff (a = b) (by simp)
  | .error e, .error f => decidable_of_iff (e = f) (by simp)
  | .ok _, .error _ => isFalse (by simp)
  | .error _, .ok _ => isFalse (by simp)

@[simp] theorem result_pure (a : α) : (pure a : Traced α).result = .ok a := rfl

@[simp] theorem events_pure (a : α) : (pure a : Traced α).events = [] := rfl

theorem ext {x y : Traced α} (hevents : x.events = y.events) (hresult : x.result = y.result) :
    x = y := by
  obtain ⟨events, result⟩ := x
  cases hevents
  cases hresult
  rfl

/-- A sequence of two computations ends well if both do, and leaves the events of both. -/
theorem bind_ok {x : Traced α} {f : α → Traced β} {b : β} (h : (x >>= f).result = .ok b) :
    ∃ a, x.result = .ok a ∧ (f a).result = .ok b ∧ (x >>= f).events = x.events ++ (f a).events := by
  cases hx : x.result with
  | error e =>
    rw [bind_of_error f hx] at h
    cases h
  | ok a =>
    rw [bind_of_ok f hx] at h ⊢
    exact ⟨a, rfl, h, rfl⟩

/-- The events of the first part stay in front. -/
theorem events_bind (x : Traced α) (f : α → Traced β) :
    ∃ later, (x >>= f).events = x.events ++ later := by
  cases hx : x.result with
  | error e => exact ⟨[], by rw [bind_of_error f hx, List.append_nil]⟩
  | ok a => exact ⟨(f a).events, by rw [bind_of_ok f hx]⟩

/-- What comes second only matters for what the first can come to. -/
theorem bind_congr_ok {x : Traced α} {f g : α → Traced β}
    (h : ∀ a, x.result = .ok a → f a = g a) : (x >>= f) = (x >>= g) := by
  cases hx : x.result with
  | error e => rw [bind_of_error f hx, bind_of_error g hx]
  | ok a => rw [bind_of_ok f hx, bind_of_ok g hx, h a hx]

/-- Noting an event first. -/
theorem note_bind (e : Event) (f : Unit → Traced β) :
    (note e >>= f) = ⟨e :: (f ()).events, (f ()).result⟩ := rfl

end Traced

namespace Registry

/-- The registry finds the command under the command's own name. -/
def Knows (r : Registry) (c : Command) : Prop := r.get? c.name = some c

theorem knows_of_get? {r : Registry} {name : String} {c : Command} (h : r.get? name = some c) :
    r.Knows c := by
  rw [Knows, name_of_get? h]
  exact h

theorem get?_of_operator? {r : Registry} {name : String} {c : Command}
    (h : r.operator? name = some c) : r.get? name = some c :=
  Option.eq_some_of_filter_eq_some h

theorem get?_of_plain? {r : Registry} {name : String} {c : Command} (h : r.plain? name = some c) :
    r.get? name = some c :=
  Option.eq_some_of_filter_eq_some h

/-- A word that is an operator names its command. -/
theorem operator?_of_classify {r : Registry} {w : String} {c : Command}
    (h : r.classify w = .operator c) : r.operator? w = some c := by
  unfold classify at h
  split at h
  · cases h
  · split at h
    · rename_i d hd
      cases h
      exact hd
    · split at h <;> cases h

/-- A word that is a call names its command behind a dash. -/
theorem called?_of_classify {r : Registry} {w : String} {c : Command} (h : r.classify w = .call c) :
    r.called? w = some c := by
  unfold classify at h
  split at h
  · cases h
  · split at h
    · cases h
    · split at h
      · rename_i d hd
        cases h
        exact hd
      · cases h

theorem knows_of_classify_operator {r : Registry} {w : String} {c : Command}
    (h : r.classify w = .operator c) : r.Knows c :=
  knows_of_get? (get?_of_operator? (operator?_of_classify h))

theorem knows_of_classify_call {r : Registry} {w : String} {c : Command}
    (h : r.classify w = .call c) : r.Knows c := by
  have hcalled := called?_of_classify h
  unfold called? at hcalled
  split at hcalled
  · exact knows_of_get? (get?_of_plain? hcalled)
  · cases hcalled

/-! ### The moves of the scan -/

theorem moveAlone_eq_call {r : Registry} {w : String} {c : Command} :
    r.moveAlone w = .call c ↔ r.classify w = .call c := by
  unfold moveAlone
  split
  · rename_i d hd
    rw [hd]
    simp
  · rename_i hne
    constructor
    · intro h
      cases h
    · intro h
      exact absurd h (hne c)

/-- A call is only made of a word that is one. -/
theorem classify_of_move_call {r : Registry} {w : String} {behind : List Slot} {c : Command}
    (h : r.move w behind = .call c) : r.classify w = .call c := by
  refine moveAlone_eq_call.mp ?_
  unfold move at h
  split at h
  · exact h
  · split at h
    · cases h
    · split at h
      · exact h
      · split at h <;> cases h
    · exact h

theorem knows_of_move_operate {r : Registry} {w : String} {behind : List Slot} {c : Command}
    {right : Slot} {tail : List Slot} (h : r.move w behind = .operate c right tail) :
    r.Knows c := by
  obtain ⟨op, -, hop⟩ := move_eq_operate h
  exact knows_of_classify_operator hop

theorem knows_of_move_call {r : Registry} {w : String} {behind : List Slot} {c : Command}
    (h : r.move w behind = .call c) : r.Knows c :=
  knows_of_classify_call (classify_of_move_call h)

end Registry

namespace Reduction

/-! ### One equation for each move -/

section

variable (r : Registry) (run : Nat → Command → List Slot → Traced Outcome)
variable (passed : List Slot) (parts : List Outcome)

theorem sweep_nil :
    sweep r run passed [] parts = pure (some ((Slot.live passed).reverse, parts)) := by
  rw [sweep]

theorem sweep_vacant (more : List Slot) :
    sweep r run passed (.vacant :: more) parts = sweep r run [] (closeUp passed more) parts := by
  rw [sweep]

variable {r} {w : String} {behind : List Slot}

theorem sweep_abandon (h : r.move w behind = .abandon) :
    sweep r run passed (.word w :: behind) parts = pure none := by
  rw [sweep]
  split <;> simp_all

theorem sweep_operate {c : Command} {right : Slot} {tail : List Slot}
    (h : r.move w behind = .operate c right tail) :
    sweep r run passed (.word w :: behind) parts = (do
      let part ← run parts.length c [.word w, right]
      sweep r run passed (.word part.value :: .vacant :: .vacant :: tail) (parts ++ [part])) := by
  rw [sweep]
  split <;> simp_all

theorem sweep_call {c : Command} (h : r.move w behind = .call c) :
    sweep r run passed (.word w :: behind) parts = (do
      let part ← run parts.length c (c.portion passed.length (Slot.dense behind)).1
      sweep r run (.word part.value :: passed)
        (afterCall (Slot.dense behind) (c.portion passed.length (Slot.dense behind)).2)
        (parts ++ [part])) := by
  rw [sweep]
  split <;> simp_all

theorem sweep_advance (h : r.move w behind = .advance) :
    sweep r run passed (.word w :: behind) parts =
      sweep r run (.word w :: passed) behind parts := by
  rw [sweep]
  split <;> simp_all

end

/-- The induction of the scan: one case for each move. -/
@[elab_as_elim] theorem sweep_induction (r : Registry)
    {motive : List Slot → List Slot → List Outcome → Prop}
    (nil : ∀ passed parts, motive passed [] parts)
    (vacant : ∀ passed more parts, motive [] (closeUp passed more) parts →
      motive passed (.vacant :: more) parts)
    (abandon : ∀ passed w behind parts, r.move w behind = .abandon →
      motive passed (.word w :: behind) parts)
    (operate : ∀ passed w behind parts c right tail, r.move w behind = .operate c right tail →
      (∀ part : Outcome, motive passed (.word part.value :: .vacant :: .vacant :: tail)
        (parts ++ [part])) → motive passed (.word w :: behind) parts)
    (call : ∀ passed w behind parts c, r.move w behind = .call c →
      (∀ part : Outcome, motive (.word part.value :: passed)
        (afterCall (Slot.dense behind) (c.portion passed.length (Slot.dense behind)).2)
        (parts ++ [part])) → motive passed (.word w :: behind) parts)
    (advance : ∀ passed w behind parts, r.move w behind = .advance →
      motive (.word w :: passed) behind parts → motive passed (.word w :: behind) parts)
    (passed rest : List Slot) (parts : List Outcome) : motive passed rest parts :=
  sweep.induct r motive nil (fun passed parts more => vacant passed more parts)
    (fun passed parts w behind => abandon passed w behind parts)
    (fun passed parts w behind => operate passed w behind parts)
    (fun passed parts w behind => call passed w behind parts)
    (fun passed parts w behind => advance passed w behind parts) passed rest parts

/--
Two scans of the same words, with nested evaluations that are related, are related: `Q`
relates the nested evaluations, and `R` has to pass from a part to what is done with it.
-/
theorem sweep_related {r : Registry} {run run' : Nat → Command → List Slot → Traced Outcome}
    {Q : Traced Outcome → Traced Outcome → Prop}
    {R : Traced (Option (List String × List Outcome)) →
      Traced (Option (List String × List Outcome)) → Prop}
    (hrun : ∀ k c args, r.Knows c → Q (run k c args) (run' k c args))
    (hpure : ∀ res, R (pure res) (pure res))
    (hbind : ∀ x y f g, Q x y → (∀ part, R (f part) (g part)) → R (x >>= f) (y >>= g)) :
    ∀ (passed rest : List Slot) (parts : List Outcome),
      R (sweep r run passed rest parts) (sweep r run' passed rest parts) := by
  intro passed rest parts
  induction passed, rest, parts using sweep_induction r with
  | nil passed parts =>
    rw [sweep_nil, sweep_nil]
    exact hpure _
  | vacant passed more parts ih =>
    rw [sweep_vacant, sweep_vacant]
    exact ih
  | abandon passed w behind parts hmove =>
    rw [sweep_abandon _ _ _ hmove, sweep_abandon _ _ _ hmove]
    exact hpure _
  | operate passed w behind parts c right tail hmove ih =>
    rw [sweep_operate _ _ _ hmove, sweep_operate _ _ _ hmove]
    exact hbind _ _ _ _ (hrun _ c _ (Registry.knows_of_move_operate hmove)) ih
  | call passed w behind parts c hmove ih =>
    rw [sweep_call _ _ _ hmove, sweep_call _ _ _ hmove]
    exact hbind _ _ _ _ (hrun _ c _ (Registry.knows_of_move_call hmove)) ih
  | advance passed w behind parts hmove ih =>
    rw [sweep_advance _ _ _ hmove, sweep_advance _ _ _ hmove]
    exact ih

end Reduction

/-! ### Evaluations -/

/-- How a command evaluates the commands nested in it. -/
def nested (r : Registry) (env : Environment) (nesting : Nat) (chance : Chance) :
    Nat → Command → List Slot → Traced Outcome :=
  fun k c args => evaluate r env nesting (chance.child k) c.name args

/-- The scan of a command's words in an environment. -/
def scanned (r : Registry) (env : Environment) (nesting : Nat) (chance : Chance)
    (words : List String) : Traced (Option (List String × List Outcome)) :=
  Reduction.sweep r (nested r env nesting chance) [] (words.map .word) []

/-- What is done when the scan is over. -/
def conclude (chance : Chance) (name : String) (c : Command) :
    Option (List String × List Outcome) → Traced Outcome
  | none => do
    .note (.abandoned name)
    pure {}
  | some (params, parts) => do
    .note (.dispatching name params chance)
    let own ← .ofExcept (c.handler chance params)
    pure (.compose parts own)

section

variable {r : Registry} {env : Environment} {nesting : Nat} {chance : Chance} {name : String}
variable {slots : List Slot} {c : Command} {o : Outcome}

theorem evaluate_succ (hc : r.get? name = some c) :
    evaluate r env (nesting + 1) chance name slots = (do
      .note (.executing name)
      .note (.substituted (substituteAll env slots))
      let res ← scanned r env nesting chance (substituteAll env slots)
      conclude chance name c res) := by
  rw [evaluate, hc]
  simp only [scanned, conclude]
  rfl

/-- An evaluation whose scan ended goes on with what is left. -/
theorem evaluate_of_scanned_ok (hc : r.get? name = some c) {events : List Event}
    {res : Option (List String × List Outcome)}
    (h : scanned r env nesting chance (substituteAll env slots) = ⟨events, .ok res⟩) :
    evaluate r env (nesting + 1) chance name slots =
      ⟨.executing name :: .substituted (substituteAll env slots) ::
        (events ++ (conclude chance name c res).events), (conclude chance name c res).result⟩ := by
  rw [evaluate_succ hc, Traced.note_bind, Traced.note_bind, h, Traced.bind_of_ok _ rfl]

/-- An evaluation whose scan has a fault has it too. -/
theorem evaluate_of_scanned_error (hc : r.get? name = some c) {events : List Event} {fault : Fault}
    (h : scanned r env nesting chance (substituteAll env slots) = ⟨events, .error fault⟩) :
    evaluate r env (nesting + 1) chance name slots =
      ⟨.executing name :: .substituted (substituteAll env slots) :: events, .error fault⟩ := by
  rw [evaluate_succ hc, Traced.note_bind, Traced.note_bind, h, Traced.bind_of_error _ rfl]

theorem conclude_some (chance : Chance) (name : String) (c : Command) (params : List String)
    (parts : List Outcome) :
    conclude chance name c (some (params, parts)) =
      ⟨[.dispatching name params chance], (c.handler chance params).map (.compose parts)⟩ := by
  rw [conclude, Traced.note_bind]
  cases h : c.handler chance params with
  | error fault => rw [Traced.bind_of_error _ rfl]; rfl
  | ok own => rw [Traced.bind_of_ok _ rfl]; rfl

/-- How an evaluation ends when its scan did: abandoned, or with the answer of its handler. -/
theorem conclude_ok {res : Option (List String × List Outcome)}
    (h : (conclude chance name c res).result = .ok o) :
    (res = none ∧ o = {} ∧ (conclude chance name c res).events = [.abandoned name]) ∨
    ∃ params parts own, res = some (params, parts) ∧ c.handler chance params = .ok own ∧
      o = .compose parts own ∧
      (conclude chance name c res).events = [.dispatching name params chance] := by
  cases res with
  | none =>
    cases h
    exact .inl ⟨rfl, rfl, rfl⟩
  | some found =>
    obtain ⟨params, parts⟩ := found
    refine .inr ⟨params, parts, ?_⟩
    rw [conclude, Traced.note_bind] at h ⊢
    obtain ⟨own, hown, ho, hevents⟩ := Traced.bind_ok h
    cases ho
    exact ⟨own, rfl, hown, rfl, by rw [hevents]; rfl⟩

/-- **A finished evaluation taken apart.** -/
theorem evaluate_ok (hc : r.get? name = some c)
    (h : (evaluate r env nesting chance name slots).result = .ok o) :
    ∃ n res, nesting = n + 1 ∧
      (scanned r env n chance (substituteAll env slots)).result = .ok res ∧
      (conclude chance name c res).result = .ok o ∧
      (evaluate r env nesting chance name slots).events =
        .executing name :: .substituted (substituteAll env slots) ::
          ((scanned r env n chance (substituteAll env slots)).events ++
            (conclude chance name c res).events) := by
  cases nesting with
  | zero => cases h
  | succ n =>
    rw [evaluate_succ hc, Traced.note_bind, Traced.note_bind] at h ⊢
    obtain ⟨res, hscan, hend, hevents⟩ := Traced.bind_ok h
    exact ⟨n, res, rfl, hscan, hend, by simp only [hevents]⟩

end

end Eel
