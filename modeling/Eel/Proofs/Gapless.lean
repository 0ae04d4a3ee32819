/-
Reducing words without ever leaving a gap.

The scan of `Reduction.sweep` leaves vacant slots behind and closes them up later.  The
reducer of this file has no slots.  It replaces words by their value at once and then
starts over from the left, and it looks at the next two words before it calls anything.
Whether the two can be told apart is the question here.

They can, in one situation.  An operator's value stays under the scan with two vacant
slots behind it, so what the scan sees next to it is a gap.  If the value is itself a
call, it is called then and there on the words behind the gap, whichever they are: an
operator or a comment marker among them is taken as an argument.  The reducer would
have started over first.  `scanAt_operate` says exactly what the scan does, and
`sweep_eq_reduce` that nothing else tells the two apart: they agree whenever each such
value is one that a new start from the left comes back to and calls.
-/
import Mathlib.Logic.Relation
import Eel.Builtin.Catalogue
import Eel.Proofs.Scan

namespace Eel

namespace Command

/-- How many of the `n` words behind it a call takes. -/
def share (c : Command) (n : Nat) : Nat :=
  match c.arity with
  | none => n
  | some a => min a.toNat n

theorem share_le (c : Command) (n : Nat) : c.share n ≤ n := by
  unfold share
  split
  · exact Nat.le_refl n
  · exact Nat.min_le_right _ n

end Command

/-- No command of the registry has a negative arity. -/
def Registry.CountsForward (r : Registry) : Prop := ∀ c ∈ r.commands, ∀ a ∈ c.arity, 0 ≤ a

theorem Registry.CountsForward.arity {r : Registry} (hr : r.CountsForward) {c : Command}
    (hc : r.Knows c) : ∀ a ∈ c.arity, 0 ≤ a :=
  hr c (List.mem_of_find?_eq_some hc)

namespace Gapless

/-! ### The reducer -/

/-- What is done at a position of a list of words. -/
inductive Deed where
  /-- There is no word left. -/
  | finish
  /-- Gives up the command. -/
  | abandon
  /-- Applies an operator to the word and to the one behind the operator. -/
  | operate (command : Command) (left right : String)
  /-- Calls a command on as many words as it takes. -/
  | call (command : Command) (count : Nat)
  /-- Passes over the word. -/
  | advance

/-- What is done at a word on its own account. -/
def deedAlone (r : Registry) (w : String) (behind : List String) : Deed :=
  match r.classify w with
  | .call c => .call c (c.share behind.length)
  | _ => .advance

/-- What is done at word `w` in front of the words `behind`. -/
def deedAt (r : Registry) (w : String) (behind : List String) : Deed :=
  match behind with
  | [] => deedAlone r w behind
  | next :: more =>
    match r.classify next, more with
    | .comment _, _ => .abandon
    | .operator c, right :: _ =>
      match r.classify right with
      | .comment _ => .abandon
      | _ => .operate c w right
    | _, _ => deedAlone r w behind

/-- What is done at position `i`. -/
def deed (r : Registry) (words : List String) (i : Nat) : Deed :=
  match words.drop i with
  | [] => .finish
  | w :: behind => deedAt r w behind

/-- How far a reduction has come. -/
structure Position where
  words : List String
  index : Nat
  /-- The outcomes of the evaluations so far, oldest first. -/
  parts : List Outcome

namespace Position

/-- Puts a value in the place of `count` words and goes to position `index`. -/
def replace (p : Position) (count index : Nat) (part : Outcome) : Position where
  words := p.words.take p.index ++ part.value :: p.words.drop (p.index + count)
  index := index
  parts := p.parts ++ [part]

/-- The words that a call at the position takes. -/
def args (p : Position) (count : Nat) : List Slot :=
  ((p.words.drop (p.index + 1)).take count).map .word

/-- Where a call goes on: from the left if it used words up, and with the next word if not. -/
def afterCall (p : Position) (count : Nat) : Nat := if count = 0 then p.index + 1 else 0

/-- A number that every step of a reduction makes smaller. -/
def effort (p : Position) : Nat := p.words.length * p.words.length + (p.words.length - p.index)

end Position

/-! ### What the deeds tell about the words -/

section

variable {r : Registry} {w : String} {behind : List String} {c : Command}

theorem deedAlone_ne_operate {left right : String} :
    deedAlone r w behind ≠ .operate c left right := by
  unfold deedAlone
  split <;> simp

theorem deedAlone_eq_call {n : Nat} (h : deedAlone r w behind = .call c n) :
    r.classify w = .call c ∧ n = c.share behind.length := by
  unfold deedAlone at h
  split at h
  · rename_i d hd
    cases h
    exact ⟨hd, rfl⟩
  · cases h

theorem deedAlone_ne_finish : deedAlone r w behind ≠ .finish := by
  unfold deedAlone
  split <;> simp

theorem deedAt_ne_finish : deedAt r w behind ≠ .finish := by
  unfold deedAt
  split
  · exact deedAlone_ne_finish
  · split
    · simp
    · split <;> simp
    · exact deedAlone_ne_finish

theorem deedAt_eq_operate {left right : String} (h : deedAt r w behind = .operate c left right) :
    left = w ∧ ∃ op tail, behind = op :: right :: tail := by
  unfold deedAt at h
  split at h
  · exact absurd h deedAlone_ne_operate
  · split at h
    · cases h
    · split at h
      · cases h
      · cases h
        exact ⟨rfl, _, _, rfl⟩
    · exact absurd h deedAlone_ne_operate

theorem deedAt_eq_call {n : Nat} (h : deedAt r w behind = .call c n) :
    r.classify w = .call c ∧ n = c.share behind.length := by
  unfold deedAt at h
  split at h
  · exact deedAlone_eq_call h
  · split at h
    · cases h
    · split at h <;> cases h
    · exact deedAlone_eq_call h

/-- There is a word at every position where something is done. -/
theorem exists_of_deed {words : List String} {i : Nat} {d : Deed} (h : deed r words i = d)
    (hd : d ≠ .finish) :
    ∃ front w behind, words = front ++ w :: behind ∧ i = front.length ∧ deedAt r w behind = d := by
  unfold deed at h
  split at h
  · exact absurd h.symm hd
  · rename_i w behind hdrop
    refine ⟨words.take i, w, behind, ?_, ?_, h⟩
    · rw [← hdrop, List.take_append_drop]
    · have hlt : 0 < (words.drop i).length := by rw [hdrop]; simp
      rw [List.length_drop] at hlt
      rw [List.length_take]
      omega

end

/-! ### Why the reduction ends

Fewer words count for more than any position among them, so each step that uses words
up lowers the effort wherever it goes on; the others go on with the next word.
-/

section

variable {r : Registry} {p : Position} {c : Command}

theorem length_replace (part : Outcome) {count : Nat} (index : Nat) (hpos : 0 < count)
    (h : p.index + count ≤ p.words.length) :
    (p.replace count index part).words.length + count = p.words.length + 1 := by
  simp only [Position.replace, List.length_append, List.length_take, List.length_cons,
    List.length_drop]
  omega

theorem effort_lt_of_length_lt {q : Position} (h : q.words.length < p.words.length) :
    q.effort < p.effort := by
  have hsquare := Nat.mul_le_mul h h
  rw [Nat.succ_mul, Nat.mul_succ] at hsquare
  unfold Position.effort
  omega

/-- An operator is applied to three words. -/
theorem index_le_of_operate {left right : String}
    (h : deed r p.words p.index = .operate c left right) : p.index + 3 ≤ p.words.length := by
  obtain ⟨front, w, behind, hwords, hindex, hat⟩ := exists_of_deed h (by simp)
  obtain ⟨-, op, tail, rfl⟩ := deedAt_eq_operate hat
  rw [hwords, hindex]
  simp only [List.length_append, List.length_cons]
  omega

/-- A call takes words that are there. -/
theorem index_le_of_call {n : Nat} (h : deed r p.words p.index = .call c n) :
    p.index + (n + 1) ≤ p.words.length := by
  obtain ⟨front, w, behind, hwords, hindex, hat⟩ := exists_of_deed h (by simp)
  have hn : n ≤ behind.length := by
    rw [(deedAt_eq_call hat).2]
    exact c.share_le behind.length
  rw [hwords, hindex]
  simp only [List.length_append, List.length_cons]
  omega

theorem effort_operate {left right : String} (part : Outcome)
    (h : deed r p.words p.index = .operate c left right) :
    (p.replace 3 0 part).effort < p.effort := by
  have hnew := length_replace part 0 (by omega) (index_le_of_operate h)
  exact effort_lt_of_length_lt (by omega)

theorem effort_call {n : Nat} (part : Outcome) (h : deed r p.words p.index = .call c n) :
    (p.replace (n + 1) (p.afterCall n) part).effort < p.effort := by
  have hle := index_le_of_call h
  have hnew := length_replace part (p.afterCall n) (show 0 < n + 1 by omega) hle
  by_cases hzero : n = 0
  · -- Nothing was used up: the words are as many as before, and the position is the next one.
    have hsame : (p.replace (n + 1) (p.afterCall n) part).words.length = p.words.length := by omega
    have hnext : (p.replace (n + 1) (p.afterCall n) part).index = p.index + 1 := by
      simp [Position.replace, Position.afterCall, hzero]
    unfold Position.effort
    rw [hsame, hnext]
    omega
  · exact effort_lt_of_length_lt (by omega)

theorem effort_advance (h : deed r p.words p.index = .advance) :
    Position.effort { p with index := p.index + 1 } < p.effort := by
  obtain ⟨front, w, behind, hwords, hindex, -⟩ := exists_of_deed h (by simp)
  have hlen : p.words.length = front.length + (behind.length + 1) := by rw [hwords]; simp
  unfold Position.effort
  show p.words.length * p.words.length + (p.words.length - (p.index + 1))
    < p.words.length * p.words.length + (p.words.length - p.index)
  omega

end

/--
Reduces the words from a position on and gives the words that are left together with
the outcomes of all evaluations, oldest first; nothing if the command was abandoned.
`run k c args` evaluates command `c` as the `k`-th of these evaluations.
-/
def reduce (r : Registry) (run : Nat → Command → List Slot → Traced Outcome) (p : Position) :
    Traced (Option (List String × List Outcome)) :=
  match _deed : deed r p.words p.index with
  | .finish => pure (some (p.words, p.parts))
  | .abandon => pure none
  | .operate c left right => do
    let part ← run p.parts.length c [.word left, .word right]
    reduce r run (p.replace 3 0 part)
  | .call c n => do
    let part ← run p.parts.length c (p.args n)
    reduce r run (p.replace (n + 1) (p.afterCall n) part)
  | .advance => reduce r run { p with index := p.index + 1 }
termination_by p.effort
decreasing_by
  · exact effort_operate part _deed
  · exact effort_call part _deed
  · exact effort_advance _deed

/-! ### The scan on words without gaps -/

/-- The move that a deed is, at a word in front of the words `behind`. -/
def Deed.move (behind : List String) : Deed → Move
  | .abandon => .abandon
  | .operate c _ right => .operate c (.word right) ((behind.drop 2).map .word)
  | .call c _ => .call c
  | .advance | .finish => .advance

theorem moveAlone_eq (r : Registry) (w : String) (behind all : List String) :
    r.moveAlone w = (deedAlone r w behind).move all := by
  unfold Registry.moveAlone deedAlone
  cases r.classify w <;> rfl

/-- Where nothing is vacant, scan and reducer do the same at every word. -/
theorem move_map_word (r : Registry) (w : String) (behind : List String) :
    r.move w (behind.map .word) = (deedAt r w behind).move behind := by
  cases behind with
  | nil => exact moveAlone_eq r w [] []
  | cons next more =>
    cases more with
    | nil =>
      have halone := moveAlone_eq r w [next] [next]
      simp only [List.map_cons, List.map_nil, Registry.move, Registry.token?, deedAt]
      cases r.classify next with
      | comment c => rfl
      | operator c => exact halone
      | literal text => exact halone
      | call c => exact halone
    | cons right tail =>
      have halone := moveAlone_eq r w (next :: right :: tail) (next :: right :: tail)
      simp only [List.map_cons, Registry.move, Registry.token?, deedAt]
      cases r.classify next with
      | comment c => rfl
      | operator c =>
        dsimp only
        cases r.classify right <;> rfl
      | literal text => exact halone
      | call c => exact halone

/-- What a call with an arity that is not negative takes and leaves. -/
theorem portion_map_word {c : Command} (hc : ∀ a ∈ c.arity, 0 ≤ a) (i : Nat) (ws : List String) :
    c.portion i (ws.map Slot.word) =
      ((ws.take (c.share ws.length)).map .word, (ws.drop (c.share ws.length)).map .word) := by
  unfold Command.portion Command.share
  cases harity : c.arity with
  | none => simp
  | some a =>
    obtain ⟨n, rfl⟩ := Int.eq_ofNat_of_zero_le (hc a harity)
    simp only [Int.toNat_natCast, ← List.map_take, ← List.map_drop]
    by_cases hle : n ≤ ws.length
    · rw [Nat.min_eq_left hle]
    · have hge : ws.length ≤ n := by omega
      rw [Nat.min_eq_right hge, List.take_of_length_le hge, List.drop_of_length_le hge]
      simp

section

variable (r : Registry) (run : Nat → Command → List Slot → Traced Outcome)

/-- The scan at a position of words without gaps. -/
def scanAt (p : Position) : Traced (Option (List String × List Outcome)) :=
  Reduction.sweep r run ((p.words.take p.index).map .word).reverse
    ((p.words.drop p.index).map .word) p.parts

theorem scanAt_append (front rest : List String) (parts : List Outcome) :
    scanAt r run ⟨front ++ rest, front.length, parts⟩ =
      Reduction.sweep r run (front.map .word).reverse (rest.map .word) parts := by
  simp [scanAt]

/-- Behind a call that took `n` words the scan goes on as the reducer does. -/
theorem sweep_afterCall (front ws : List String) {n : Nat} (hn : n ≤ ws.length) (v : String)
    (parts : List Outcome) :
    Reduction.sweep r run (.word v :: (front.map .word).reverse)
      (Reduction.afterCall (ws.map .word) ((ws.drop n).map .word)) parts =
    scanAt r run ⟨front ++ v :: ws.drop n, if n = 0 then front.length + 1 else 0, parts⟩ := by
  have hgaps : Reduction.afterCall (ws.map .word) ((ws.drop n).map .word)
      = List.replicate n .vacant ++ (ws.drop n).map .word := by
    have hcount : ws.length - (ws.length - n) = n := by omega
    simp [Reduction.afterCall, hcount]
  have hpassed : Slot.word v :: (front.map Slot.word).reverse
      = ((front ++ [v]).map Slot.word).reverse := by simp
  rw [hgaps, hpassed]
  cases n with
  | zero =>
    have hnext := scanAt_append r run (front ++ [v]) ws parts
    simpa using hnext.symm
  | succ n =>
    rw [List.replicate_succ, List.cons_append, Reduction.sweep_vacant]
    have hclosed : Reduction.closeUp ((front ++ [v]).map Slot.word).reverse
        (List.replicate n .vacant ++ (ws.drop (n + 1)).map .word)
        = (front ++ v :: ws.drop (n + 1)).map Slot.word := by
      simp only [Reduction.closeUp, Slot.dense, List.reverse_reverse, Slot.live_append,
        Slot.live_map_word, Slot.live_replicate_vacant]
      simp
    rw [hclosed]
    simp [scanAt]

/-- A call at a position, whatever stands next to it. -/
def callAt (p : Position) (c : Command) (n : Nat) :
    Traced (Option (List String × List Outcome)) := do
  let part ← run p.parts.length c (p.args n)
  scanAt r run (p.replace (n + 1) (p.afterCall n) part)

/-- How the scan goes on from an operator with a given value. -/
def operated (p : Position) (part : Outcome) : Traced (Option (List String × List Outcome)) :=
  match r.classify part.value with
  | .call d =>
    callAt r run (p.replace 3 p.index part) d (d.share (p.words.length - (p.index + 3)))
  | _ => scanAt r run (p.replace 3 0 part)

variable {r} {p : Position}

theorem scanAt_finish (h : deed r p.words p.index = .finish) :
    scanAt r run p = pure (some (p.words, p.parts)) := by
  obtain ⟨words, index, parts⟩ := p
  have hend : words.length ≤ index := by
    rcases Nat.lt_or_ge index words.length with hlt | hge
    · simp only [deed, List.drop_eq_getElem_cons hlt] at h
      exact absurd h deedAt_ne_finish
    · exact hge
  have htake : words.take index = words := List.take_of_length_le hend
  have hdrop : words.drop index = [] := List.drop_of_length_le hend
  simp only [scanAt, htake, hdrop, List.map_nil]
  rw [Reduction.sweep_nil]
  simp

theorem scanAt_abandon (h : deed r p.words p.index = .abandon) : scanAt r run p = pure none := by
  obtain ⟨words, index, parts⟩ := p
  obtain ⟨front, w, behind, rfl, rfl, hat⟩ := exists_of_deed h (by simp)
  have hmove := move_map_word r w behind
  rw [hat] at hmove
  rw [scanAt_append, List.map_cons, Reduction.sweep_abandon _ _ _ hmove]

theorem scanAt_advance (h : deed r p.words p.index = .advance) :
    scanAt r run p = scanAt r run { p with index := p.index + 1 } := by
  obtain ⟨words, index, parts⟩ := p
  obtain ⟨front, w, behind, rfl, rfl, hat⟩ := exists_of_deed h (by simp)
  have hmove := move_map_word r w behind
  rw [hat] at hmove
  have hnext := scanAt_append r run (front ++ [w]) behind parts
  rw [scanAt_append, List.map_cons, Reduction.sweep_advance _ _ _ hmove]
  simpa using hnext.symm

/-- Behind a word with only gaps or live words behind it, a call takes the live ones. -/
theorem sweep_call_words (hr : r.CountsForward) {c : Command} {w : String} {slots : List Slot}
    (hmove : r.move w slots = .call c) (front ws : List String) (hslots : Slot.live slots = ws)
    (parts : List Outcome) :
    Reduction.sweep r run (front.map .word).reverse (.word w :: slots) parts =
      callAt r run ⟨front ++ w :: ws, front.length, parts⟩ c (c.share ws.length) := by
  have hdense : Slot.dense slots = ws.map .word := by rw [Slot.dense, hslots]
  have hportion := portion_map_word (hr.arity (Registry.knows_of_move_call hmove))
    (front.map Slot.word).reverse.length ws
  have hargs : Position.args ⟨front ++ w :: ws, front.length, parts⟩ (c.share ws.length)
      = (ws.take (c.share ws.length)).map .word := by simp [Position.args]
  rw [Reduction.sweep_call _ _ _ hmove, hdense, hportion, callAt, hargs]
  refine congrArg _ (funext fun part => ?_)
  rw [sweep_afterCall r run front ws (c.share_le ws.length)]
  simp [Position.replace, Position.afterCall]

theorem scanAt_call (hr : r.CountsForward) {c : Command} {n : Nat}
    (h : deed r p.words p.index = .call c n) : scanAt r run p = callAt r run p c n := by
  obtain ⟨words, index, parts⟩ := p
  obtain ⟨front, w, behind, rfl, rfl, hat⟩ := exists_of_deed h (by simp)
  have hmove := move_map_word r w behind
  rw [hat] at hmove
  obtain ⟨-, rfl⟩ := deedAt_eq_call hat
  rw [scanAt_append, List.map_cons]
  exact sweep_call_words run hr hmove front behind (Slot.live_map_word behind) parts

/-- The slots behind an operator's value, which are two gaps and the words that follow. -/
theorem sweep_operated (hr : r.CountsForward) (front : List String) (left op right : String)
    (tail : List String) (parts : List Outcome) (part : Outcome) :
    Reduction.sweep r run (front.map .word).reverse
      (.word part.value :: .vacant :: .vacant :: tail.map .word) (parts ++ [part]) =
    operated r run ⟨front ++ left :: op :: right :: tail, front.length, parts⟩ part := by
  -- Next to the value stands a gap, so that the move there depends on the value alone.
  have hgap : r.move part.value (.vacant :: .vacant :: tail.map .word)
      = r.moveAlone part.value := rfl
  have hlive : Slot.live (.vacant :: .vacant :: tail.map .word) = tail := Slot.live_map_word tail
  unfold operated
  split
  · rename_i d hd
    have hcount : (front ++ left :: op :: right :: tail).length - (front.length + 3)
        = tail.length := by
      simp only [List.length_append, List.length_cons]
      omega
    rw [sweep_call_words run hr (hgap.trans (Registry.moveAlone_eq_call.mpr hd)) front tail hlive,
      hcount]
    simp [Position.replace]
  · rename_i hd
    have hmove : r.move part.value (.vacant :: .vacant :: tail.map .word) = .advance := by
      rw [hgap, Registry.moveAlone]
      split
      · rename_i d hd'
        exact absurd hd' (hd d)
      · rfl
    have hgaps : Slot.vacant :: Slot.vacant :: tail.map Slot.word
        = Reduction.afterCall ((op :: right :: tail).map .word)
            (((op :: right :: tail).drop 2).map .word) := by
      have htwo : tail.length + 1 + 1 - tail.length = 2 := by omega
      simp [Reduction.afterCall, htwo, List.replicate_succ]
    rw [Reduction.sweep_advance _ _ _ hmove, hgaps, sweep_afterCall r run front _ (by simp)]
    simp [Position.replace]

/--
**What the scan does with an operator.**  A value that is no call takes the place of
the three words and the scan starts over.  A value that is a call is called on the
spot, and neither an operator nor a comment marker behind it is looked at.
-/
theorem scanAt_operate (hr : r.CountsForward) {c : Command} {left right : String}
    (h : deed r p.words p.index = .operate c left right) :
    scanAt r run p = (do
      let part ← run p.parts.length c [.word left, .word right]
      operated r run p part) := by
  obtain ⟨words, index, parts⟩ := p
  obtain ⟨front, w, behind, rfl, rfl, hat⟩ := exists_of_deed h (by simp)
  have hmove := move_map_word r w behind
  rw [hat] at hmove
  obtain ⟨rfl, op, tail, rfl⟩ := deedAt_eq_operate hat
  rw [scanAt_append, List.map_cons, Reduction.sweep_operate _ _ _ hmove]
  refine congrArg _ (funext fun part => ?_)
  exact sweep_operated run hr front left op right tail parts part

end

/-! ### Scan and reducer side by side -/

section

variable {r : Registry} (run : Nat → Command → List Slot → Traced Outcome) {p : Position}

theorem reduce_finish (h : deed r p.words p.index = .finish) :
    reduce r run p = pure (some (p.words, p.parts)) := by
  rw [reduce]
  split <;> simp_all

theorem reduce_abandon (h : deed r p.words p.index = .abandon) : reduce r run p = pure none := by
  rw [reduce]
  split <;> simp_all

theorem reduce_operate {c : Command} {left right : String}
    (h : deed r p.words p.index = .operate c left right) :
    reduce r run p = (do
      let part ← run p.parts.length c [.word left, .word right]
      reduce r run (p.replace 3 0 part)) := by
  rw [reduce]
  split <;> simp_all

theorem reduce_call {c : Command} {n : Nat} (h : deed r p.words p.index = .call c n) :
    reduce r run p = (do
      let part ← run p.parts.length c (p.args n)
      reduce r run (p.replace (n + 1) (p.afterCall n) part)) := by
  rw [reduce]
  split <;> simp_all

theorem reduce_advance (h : deed r p.words p.index = .advance) :
    reduce r run p = reduce r run { p with index := p.index + 1 } := by
  rw [reduce]
  split <;> simp_all

end

/-- One step of the reducer. -/
inductive Next (r : Registry) (run : Nat → Command → List Slot → Traced Outcome) :
    Position → Position → Prop
  | operate {p : Position} {c : Command} {left right : String} {part : Outcome}
      (hdeed : deed r p.words p.index = .operate c left right)
      (hrun : (run p.parts.length c [.word left, .word right]).result = .ok part) :
      Next r run p (p.replace 3 0 part)
  | call {p : Position} {c : Command} {n : Nat} {part : Outcome}
      (hdeed : deed r p.words p.index = .call c n)
      (hrun : (run p.parts.length c (p.args n)).result = .ok part) :
      Next r run p (p.replace (n + 1) (p.afterCall n) part)
  | advance {p : Position} (hdeed : deed r p.words p.index = .advance) :
      Next r run p { p with index := p.index + 1 }

/-- The positions that the reducer comes to. -/
def Reaches (r : Registry) (run : Nat → Command → List Slot → Traced Outcome) :
    Position → Position → Prop :=
  Relation.ReflTransGen (Next r run)

/-- A start from the left passes over the words in front of position `i` and calls the one there. -/
def ComesBack (r : Registry) (words : List String) (i : Nat) : Prop :=
  (∀ j < i, deed r words j = .advance) ∧ ∃ c n, deed r words i = .call c n

/-- Whenever an operator's value is a call, a new start from the left comes back to it. -/
def Undisturbed (r : Registry) (run : Nat → Command → List Slot → Traced Outcome)
    (p : Position) : Prop :=
  ∀ q c left right part d, Reaches r run p q → deed r q.words q.index = .operate c left right →
    (run q.parts.length c [.word left, .word right]).result = .ok part →
    r.classify part.value = .call d → ComesBack r (q.replace 3 0 part).words q.index

section

variable {r : Registry} {run : Nat → Command → List Slot → Traced Outcome} {p q : Position}

theorem Undisturbed.next (h : Undisturbed r run p) (hnext : Next r run p q) :
    Undisturbed r run q := by
  intro q' c left right part d hreach
  exact h q' c left right part d (.head hnext hreach)

/-! The steps of the reducer are determined by its deeds, so that it can be followed. -/

theorem undisturbed_of_operate {c : Command} {left right : String} {part : Outcome}
    (hdeed : deed r p.words p.index = .operate c left right)
    (hrun : (run p.parts.length c [.word left, .word right]).result = .ok part)
    (hback : ∀ d, r.classify part.value = .call d →
      ComesBack r (p.replace 3 0 part).words p.index)
    (hrest : Undisturbed r run (p.replace 3 0 part)) : Undisturbed r run p := by
  intro q c' left' right' part' d hreach hdeed' hrun' hcall
  rcases Relation.ReflTransGen.cases_head hreach with rfl | ⟨q', hnext, hlater⟩
  · rw [hdeed] at hdeed'
    cases hdeed'
    rw [hrun] at hrun'
    cases hrun'
    exact hback d hcall
  · cases hnext with
    | operate hd hr =>
      rw [hdeed] at hd
      cases hd
      rw [hrun] at hr
      cases hr
      exact hrest q c' left' right' part' d hlater hdeed' hrun' hcall
    | call hd _ => rw [hdeed] at hd; cases hd
    | advance hd => rw [hdeed] at hd; cases hd

theorem undisturbed_of_call {c : Command} {n : Nat} (hdeed : deed r p.words p.index = .call c n)
    (hrest : ∀ part, (run p.parts.length c (p.args n)).result = .ok part →
      Undisturbed r run (p.replace (n + 1) (p.afterCall n) part)) : Undisturbed r run p := by
  intro q c' left' right' part' d hreach hdeed' hrun' hcall
  rcases Relation.ReflTransGen.cases_head hreach with rfl | ⟨q', hnext, hlater⟩
  · rw [hdeed] at hdeed'
    cases hdeed'
  · cases hnext with
    | call hd hr =>
      rw [hdeed] at hd
      cases hd
      exact hrest _ hr q c' left' right' part' d hlater hdeed' hrun' hcall
    | operate hd _ => rw [hdeed] at hd; cases hd
    | advance hd => rw [hdeed] at hd; cases hd

/-- The words never get more. -/
theorem length_next (h : Next r run p q) : q.words.length ≤ p.words.length := by
  cases h with
  | @operate c left right part hdeed _ =>
    have hnew := length_replace part 0 (by omega) (index_le_of_operate hdeed)
    omega
  | @call c n part hdeed _ =>
    have hnew := length_replace part (p.afterCall n) (by omega) (index_le_of_call hdeed)
    omega
  | advance _ => exact Nat.le_refl _

theorem length_reaches (h : Reaches r run p q) : q.words.length ≤ p.words.length := by
  induction h with
  | refl => exact Nat.le_refl _
  | tail _ hnext ih => exact Nat.le_trans (length_next hnext) ih

/-- Fewer words than three have no operator to apply. -/
theorem undisturbed_of_short (h : p.words.length < 3) : Undisturbed r run p := by
  intro q c left right part d hreach hdeed
  have hle := length_reaches hreach
  have hthree := index_le_of_operate hdeed
  omega

theorem scanAt_of_passed (words : List String) (parts : List Outcome) :
    ∀ {i : Nat}, (∀ j < i, deed r words j = .advance) →
      scanAt r run ⟨words, 0, parts⟩ = scanAt r run ⟨words, i, parts⟩ := by
  intro i
  induction i with
  | zero => intro _; rfl
  | succ i ih =>
    intro hpass
    rw [ih fun j hj => hpass j (by omega)]
    exact scanAt_advance (p := ⟨words, i, parts⟩) run (hpass i (by omega))

/-- A call on the spot is what a new start from the left would have come to. -/
theorem operated_of_comesBack (hr : r.CountsForward) {c : Command} {left right : String}
    {part : Outcome} (hdeed : deed r p.words p.index = .operate c left right)
    (hback : ∀ d, r.classify part.value = .call d →
      ComesBack r (p.replace 3 0 part).words p.index) :
    operated r run p part = scanAt r run (p.replace 3 0 part) := by
  obtain ⟨words, index, parts⟩ := p
  obtain ⟨front, w, behind, rfl, rfl, hat⟩ := exists_of_deed hdeed (by simp)
  obtain ⟨rfl, op, tail, rfl⟩ := deedAt_eq_operate hat
  have hcount : (front ++ left :: op :: right :: tail).length - (front.length + 3)
      = tail.length := by
    simp only [List.length_append, List.length_cons]
    omega
  have hwords : ∀ i, Position.replace ⟨front ++ left :: op :: right :: tail, front.length, parts⟩
      3 i part = ⟨front ++ part.value :: tail, i, parts ++ [part]⟩ := by
    intro i
    simp [Position.replace]
  simp only [hwords] at hback
  unfold operated
  split
  · rename_i d hd
    obtain ⟨hpass, e, n, hcall⟩ := hback d hd
    have hvalue : deed r (front ++ part.value :: tail) front.length
        = deedAt r part.value tail := by simp [deed]
    obtain ⟨he, rfl⟩ := deedAt_eq_call (hvalue.symm.trans hcall)
    obtain rfl : e = d := by
      rw [hd] at he
      cases he
      rfl
    simp only [hwords, hcount]
    rw [scanAt_of_passed _ _ hpass, scanAt_call run hr hcall]
  · rfl

/-- Scan and reducer agree from every position from which the reducer is undisturbed. -/
theorem scanAt_eq_reduce (hr : r.CountsForward) :
    ∀ p, Undisturbed r run p → scanAt r run p = reduce r run p := by
  intro p
  induction p using reduce.induct r with
  | case1 p hdeed =>
    intro _
    rw [scanAt_finish run hdeed, reduce_finish run hdeed]
  | case2 p hdeed =>
    intro _
    rw [scanAt_abandon run hdeed, reduce_abandon run hdeed]
  | case3 p c left right hdeed ih =>
    intro h
    rw [scanAt_operate run hr hdeed, reduce_operate run hdeed]
    refine Traced.bind_congr_ok fun part hpart => ?_
    rw [operated_of_comesBack hr hdeed fun d => h p c left right part d .refl hdeed hpart]
    exact ih part (h.next (.operate hdeed hpart))
  | case4 p c n hdeed ih =>
    intro h
    rw [scanAt_call run hr hdeed, reduce_call run hdeed, callAt]
    refine Traced.bind_congr_ok fun part hpart => ?_
    exact ih part (h.next (.call hdeed hpart))
  | case5 p hdeed ih =>
    intro h
    rw [scanAt_advance run hdeed, reduce_advance run hdeed]
    exact ih (h.next (.advance hdeed))

/-- One step of the scan, told without gaps. -/
def scanStep (r : Registry) (run : Nat → Command → List Slot → Traced Outcome) (p : Position) :
    Traced (Option (List String × List Outcome)) :=
  match deed r p.words p.index with
  | .finish => pure (some (p.words, p.parts))
  | .abandon => pure none
  | .operate c left right => do
    let part ← run p.parts.length c [.word left, .word right]
    operated r run p part
  | .call c n => callAt r run p c n
  | .advance => scanAt r run { p with index := p.index + 1 }

theorem scanAt_eq_scanStep (hr : r.CountsForward) (p : Position) :
    scanAt r run p = scanStep r run p := by
  unfold scanStep
  split
  · rename_i hdeed
    exact scanAt_finish run hdeed
  · rename_i hdeed
    exact scanAt_abandon run hdeed
  · rename_i c left right hdeed
    exact scanAt_operate run hr hdeed
  · rename_i c n hdeed
    exact scanAt_call run hr hdeed
  · rename_i hdeed
    exact scanAt_advance run hdeed

end

/--
**Gaps cannot be seen, except behind an operator whose value is a call.**  From words
without gaps the scan takes the reducer's own steps, with one difference: the value of
an operator that is a call is called on the spot.  Scan and reducer give up, fail and
end alike, with the same words and outcomes, whenever each such value is one that a
new start from the left comes back to and calls.
-/
theorem sweep_eq_reduce {r : Registry} (hr : r.CountsForward)
    (run : Nat → Command → List Slot → Traced Outcome) (words : List String) :
    (∀ p, scanAt r run p = scanStep r run p) ∧
    (Undisturbed r run ⟨words, 0, []⟩ →
      Reduction.sweep r run [] (words.map .word) [] = reduce r run ⟨words, 0, []⟩) := by
  refine ⟨scanAt_eq_scanStep hr, ?_⟩
  intro h
  rw [← scanAt_eq_reduce hr _ h, scanAt]
  rfl

/-! ### Values that are calls, with and without something next to them -/

theorem countsForward_builtin : Builtin.registry.CountsForward := by
  unfold Registry.CountsForward
  decide

/-- The reducer joins `-` and `join` to a call, which takes the two words behind it. -/
theorem undisturbed_join :
    Undisturbed Builtin.registry (nested Builtin.registry .initial 1 (.constant 0))
      ⟨["-", "..", "join", "a", "b"], 0, []⟩ := by
  have hrun : (nested Builtin.registry .initial 1 (.constant 0) 0
      (Builtin.betweenTexts ".." (· ++ ·)) [.word "-", .word "join"]).result = .ok (.ofValue "-join") := by
    decide +kernel
  refine undisturbed_of_operate rfl hrun (fun d _ => ⟨by simp, _, _, rfl⟩) ?_
  refine undisturbed_of_call rfl fun part _ => ?_
  exact undisturbed_of_short (show 1 < 3 by decide)

/-- The two calls of `undisturbed_join` are made by the scan and by the reducer alike. -/
theorem sweep_eq_reduce_join :
    Builtin.registry.CountsForward ∧
    Undisturbed Builtin.registry (nested Builtin.registry .initial 1 (.constant 0))
      ⟨["-", "..", "join", "a", "b"], 0, []⟩ ∧
    Reduction.sweep Builtin.registry (nested Builtin.registry .initial 1 (.constant 0)) []
        (["-", "..", "join", "a", "b"].map .word) [] =
      reduce Builtin.registry (nested Builtin.registry .initial 1 (.constant 0))
        ⟨["-", "..", "join", "a", "b"], 0, []⟩ :=
  ⟨countsForward_builtin, undisturbed_join,
    (sweep_eq_reduce countsForward_builtin _ _).2 undisturbed_join⟩

/--
Behind a value that is a call, the scan takes a comment marker for an argument where
the reducer gives the command up, and an operator where the reducer applies it.
-/
theorem sweep_ne_reduce_join :
    (scanned Builtin.registry .initial 2 (.constant 0) ["-", "..", "join", "//", "x"]).result.map
        (·.map Prod.fst) = .ok (some ["//x"]) ∧
    (reduce Builtin.registry (nested Builtin.registry .initial 2 (.constant 0))
        ⟨["-", "..", "join", "//", "x"], 0, []⟩).result.map (·.map Prod.fst) = .ok none ∧
    (scanned Builtin.registry .initial 2 (.constant 0) ["-", "..", "string", "..", "x"]).result.map
        (·.map Prod.fst) = .ok (some ["..", "x"]) ∧
    (reduce Builtin.registry (nested Builtin.registry .initial 2 (.constant 0))
        ⟨["-", "..", "string", "..", "x"], 0, []⟩).result.map (·.map Prod.fst) =
      .error (.operandsMissing 1) := by
  decide +kernel

end Gapless

end Eel
