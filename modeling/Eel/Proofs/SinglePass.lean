/-
How often the references of a line are replaced.

Every evaluation makes one pass over its words, and so does each evaluation nested in
it, although its words have been gone over before.  A text that came out of a variable
or out of a nested command is therefore looked at again as soon as it is an argument.

To see what the later passes do, an evaluation is compared with one that has no
variables at all and gets words in which everything has been replaced beforehand.  The
trace of that one shows the words handed to each nested evaluation.  The two are the
same if and only if none of these words would change in another pass:
`evaluate_eq_iff_settled`.

The two evaluations run side by side and do the same until a nested pass changes
something.  From there on their traces differ, whatever comes later, because the words
of that pass are on record.  `Alike` holds both ways of a comparison and passes through
sequences, scans and evaluations.
-/
import Eel.Builtin.Catalogue
import Eel.Proofs.Scan

namespace Eel

namespace Substitution

theorem resolve_empty (name : List Char) : resolve ∅ name = '-' :: name := rfl

/-- Without variables a pass changes nothing. -/
theorem scan_empty (fresh : Bool) (cs : List Char) : scan ∅ fresh cs = cs := by
  induction fresh, cs using scan.induct with
  | case1 fresh => rw [scan]
  | case2 fresh c rest hdash hname ih =>
    rw [scan]
    simp [hdash, hname, ih]
  | case3 fresh c rest hdash hname ih =>
    have hc : c = '-' := by simpa using (Bool.and_eq_true_iff.mp hdash).2
    rw [scan, if_pos hdash]
    split
    · rename_i hnil
      exact absurd hnil hname
    · rw [ih, resolve_empty, hc, List.cons_append, List.takeWhile_append_dropWhile]
  | case4 fresh c rest hdash ih =>
    rw [scan, if_neg hdash, ih]

end Substitution

theorem substitute_empty (w : String) : substitute ∅ w = w := by
  rw [substitute, Substitution.scan_empty]
  exact String.ofList_toList

theorem substituteAll_empty (slots : List Slot) : substituteAll ∅ slots = Slot.live slots := by
  rw [substituteAll, show substitute ∅ = id from funext substitute_empty, List.map_id]

theorem substituteAll_map_word (env : Environment) (ws : List String) :
    substituteAll env (ws.map .word) = ws.map (substitute env) := by
  rw [substituteAll, Slot.live_map_word]

/-- Another pass changes none of the words. -/
def Settled (env : Environment) (ws : List String) : Prop := ws.map (substitute env) = ws

/-! ### Two computations side by side -/

/-- The computations are the same, and every pass on record has left settled words. -/
def Together {α : Type} (env : Environment) (x y : Traced α) : Prop :=
  x = y ∧ ∀ ws, .substituted ws ∈ y.events → Settled env ws

/-- The traces are the same up to a pass that changed its words in one of them. -/
def Apart {α : Type} (env : Environment) (x y : Traced α) : Prop :=
  ∃ before ws later later', x.events = before ++ .substituted (ws.map (substitute env)) :: later ∧
    y.events = before ++ .substituted ws :: later' ∧ ¬ Settled env ws

/-- The computations stay together, or they part at a pass that changed its words. -/
def Alike {α : Type} (env : Environment) (x y : Traced α) : Prop :=
  Together env x y ∨ Apart env x y

section

variable {α β : Type} {env : Environment}

theorem alike_refl {x : Traced α} (h : ∀ ws, .substituted ws ∉ x.events) : Alike env x x :=
  .inl ⟨rfl, fun ws hws => absurd hws (h ws)⟩

theorem Apart.bind {x y : Traced α} (h : Apart env x y) (f g : α → Traced β) :
    Apart env (x >>= f) (y >>= g) := by
  obtain ⟨before, ws, later, later', hx, hy, hws⟩ := h
  obtain ⟨more, hmore⟩ := Traced.events_bind x f
  obtain ⟨more', hmore'⟩ := Traced.events_bind y g
  refine ⟨before, ws, later ++ more, later' ++ more', ?_, ?_, hws⟩
  · rw [hmore, hx]
    simp
  · rw [hmore', hy]
    simp

theorem Together.bind {x y : Traced α} (h : Together env x y) {f g : α → Traced β}
    (hfg : ∀ a, Alike env (f a) (g a)) : Alike env (x >>= f) (y >>= g) := by
  obtain ⟨rfl, hsettled⟩ := h
  cases hx : x.result with
  | error e =>
    rw [Traced.bind_of_error f hx, Traced.bind_of_error g hx]
    exact .inl ⟨rfl, hsettled⟩
  | ok a =>
    rw [Traced.bind_of_ok f hx, Traced.bind_of_ok g hx]
    rcases hfg a with ⟨hsame, hlater⟩ | ⟨before, ws, later, later', hf, hg, hws⟩
    · refine .inl ⟨by rw [hsame], ?_⟩
      intro ws hws
      rcases List.mem_append.mp hws with h | h
      · exact hsettled ws h
      · exact hlater ws h
    · exact .inr ⟨x.events ++ before, ws, later, later', by simp [hf], by simp [hg], hws⟩

theorem Alike.bind {x y : Traced α} {f g : α → Traced β} (h : Alike env x y)
    (hfg : ∀ a, Alike env (f a) (g a)) : Alike env (x >>= f) (y >>= g) := by
  rcases h with htogether | hapart
  · exact htogether.bind hfg
  · exact .inr (hapart.bind f g)

/-- Two computations that are alike are the same exactly if all recorded words are settled. -/
theorem Alike.eq_iff {x y : Traced α} (h : Alike env x y) :
    x = y ↔ ∀ ws, .substituted ws ∈ y.events → Settled env ws := by
  rcases h with ⟨hsame, hsettled⟩ | ⟨before, ws, later, later', hx, hy, hws⟩
  · exact ⟨fun _ => hsettled, fun _ => hsame⟩
  · constructor
    · intro hsame
      rw [hsame, hy] at hx
      have hevent := (List.cons.inj (List.append_cancel_left hx)).1
      exact absurd (Event.substituted.inj hevent).symm hws
    · intro hall
      exact absurd (hall ws (by rw [hy]; simp)) hws

end

/-! ### Evaluations with and without variables -/

section

variable (r : Registry) (env : Environment)

theorem substituted_not_mem_conclude (chance : Chance) (name : String) (c : Command)
    (res : Option (List String × List Outcome)) (ws : List String) :
    .substituted ws ∉ (conclude chance name c res).events := by
  cases res with
  | none => simp [conclude, Traced.note_bind]
  | some found =>
    obtain ⟨params, parts⟩ := found
    rw [conclude, Traced.note_bind]
    cases c.handler chance params with
    | error e => simp [Traced.ofExcept, Traced.bind_of_error]
    | ok own => simp [Traced.ofExcept, Traced.bind_of_ok]

/-- A scan and what follows it, when the nested evaluations are alike. -/
theorem alike_scanned {nesting : Nat} {chance : Chance}
    (hnested : ∀ k c args, r.Knows c →
      Alike env (nested r env nesting chance k c args) (nested r ∅ nesting chance k c args))
    (name : String) (c : Command) (words : List String) :
    Alike env (scanned r env nesting chance words >>= conclude chance name c)
      (scanned r ∅ nesting chance words >>= conclude chance name c) := by
  have hscan : Alike env (scanned r env nesting chance words)
      (scanned r ∅ nesting chance words) :=
    Reduction.sweep_related hnested (fun res => alike_refl (by simp))
      (fun x y f g hxy hfg => hxy.bind hfg) _ _ _
  exact hscan.bind fun res => alike_refl (substituted_not_mem_conclude chance name c res)

/-- The same command on the same words, with the variables and without. -/
theorem alike_evaluate : ∀ (nesting : Nat) (chance : Chance) (name : String) (slots : List Slot),
    Alike env (evaluate r env nesting chance name slots)
      (evaluate r ∅ nesting chance name slots) := by
  intro nesting
  induction nesting with
  | zero =>
    intro chance name slots
    exact alike_refl (by simp [evaluate, Traced.fail])
  | succ n ih =>
    intro chance name slots
    cases hc : r.get? name with
    | none =>
      have hnone : ∀ e : Environment, evaluate r e (n + 1) chance name slots
          = pure (commandNotFound name) := fun e => by rw [evaluate, hc]
      rw [hnone, hnone]
      exact alike_refl (by simp)
    | some c =>
      rw [evaluate_succ hc, evaluate_succ hc, substituteAll_empty]
      have hlater := alike_scanned r env (fun k d args _ => ih (chance.child k) d.name args) name c
      by_cases hsettled : Settled env (Slot.live slots)
      · -- The pass changes nothing, and the scans have the same words.
        have hwords : substituteAll env slots = Slot.live slots := hsettled
        rw [hwords]
        refine Together.bind ⟨rfl, by simp [Traced.note]⟩ fun _ => ?_
        refine Together.bind ⟨rfl, ?_⟩ fun _ => hlater (Slot.live slots)
        intro ws hws
        obtain rfl : ws = Slot.live slots := by simpa [Traced.note] using hws
        exact hsettled
      · exact .inr ⟨[.executing name], Slot.live slots, _, _, rfl, rfl, hsettled⟩

end

/--
**One pass is enough exactly if no nested evaluation is handed a word that another pass
would change.**  On the left an evaluation with its variables and one without any, on
words in which they have been replaced beforehand: same trace, same outcome or fault.
On the right the words of the nested evaluations of the latter, as its trace shows them
behind the two events of its own start.
-/
theorem evaluate_eq_iff_settled (r : Registry) (env : Environment) (nesting : Nat)
    (chance : Chance) (name : String) (words : List String) :
    evaluate r env nesting chance name (words.map .word) =
      evaluate r ∅ nesting chance name ((words.map (substitute env)).map .word) ↔
    ∀ ws, .substituted ws ∈
        (evaluate r ∅ nesting chance name ((words.map (substitute env)).map .word)).events.drop 2 →
      ws.map (substitute env) = ws := by
  cases nesting with
  | zero => simp [evaluate, Traced.fail]
  | succ n =>
    cases hc : r.get? name with
    | none =>
      have hnone : ∀ (e : Environment) (slots : List Slot),
          evaluate r e (n + 1) chance name slots = pure (commandNotFound name) := by
        intro e slots
        rw [evaluate, hc]
      simp [hnone]
    | some c =>
      have halike := alike_scanned r env
        (fun k d args _ => alike_evaluate r env n (chance.child k) d.name args) name c
        (words.map (substitute env))
      rw [evaluate_succ hc, evaluate_succ hc, substituteAll_empty, substituteAll_map_word,
        Slot.live_map_word, Traced.note_bind, Traced.note_bind, Traced.note_bind,
        Traced.note_bind]
      refine Iff.trans ?_ halike.eq_iff
      constructor
      · intro h
        obtain ⟨hevents, hresult⟩ := Traced.mk.inj h
        exact Traced.ext (List.cons.inj (List.cons.inj hevents).2).2 hresult
      · intro h
        rw [h]

/--
A variable's text is looked at again where it is an argument, and so is the value of an
operator: what was one reference becomes another.
-/
theorem evaluate_ne_replaced :
    (evaluate Builtin.registry (.ofList [("x", "-y"), ("y", "5")]) 2 (.constant 0) "print"
      (["-string", "-x"].map .word)).result = .ok (.say .output "5" false) ∧
    (evaluate Builtin.registry ∅ 2 (.constant 0) "print"
      ((["-string", "-x"].map (substitute (.ofList [("x", "-y"), ("y", "5")]))).map
        .word)).result = .ok (.say .output "-y" false) ∧
    (evaluate Builtin.registry (.ofList [("a", "1")]) 2 (.constant 0) "print"
      (["-", "..", "a", "..", "b"].map .word)).result = .ok (.say .output "1b" false) ∧
    (evaluate Builtin.registry ∅ 2 (.constant 0) "print"
      ((["-", "..", "a", "..", "b"].map (substitute (.ofList [("a", "1")]))).map
        .word)).result = .ok (.say .output "-ab" false) := by
  decide +kernel

end Eel
