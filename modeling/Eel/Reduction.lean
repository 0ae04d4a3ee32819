/-
Reducing a list of words: nested calls and operators are replaced by their values.

The scan goes from left to right.  At each word it first looks at the next one.  A
comment marker there, or behind an operator there, abandons the whole command.  An
operator with a word behind it is applied to its two neighbours; the value takes
the place of the left operand, the other two slots fall vacant, and the scan stays
where it is, so that operators chain leftwards without precedence.  Otherwise a
call takes its words, which fall vacant too, and the scan moves on; any other word
is passed over.  When the scan comes to a vacant slot, all vacant slots are closed
up and it starts again from the left.

The scan is a zipper: `passed` holds the slots to its left, nearest first, and `rest`
those from its position on.  It ends because closing up shortens the list, and
between two closings every move uses up live words or leaves less to scan.
-/
import Eel.Token
import Eel.Trace

namespace Eel

/-- What the scan does at a word. -/
inductive Move where
  /-- Gives up the command. -/
  | abandon
  /-- Applies an operator to the word and to `right`; `tail` stands behind them. -/
  | operate (command : Command) (right : Slot) (tail : List Slot)
  /-- Calls a command. -/
  | call (command : Command)
  /-- Passes over the word. -/
  | advance

namespace Registry

/-- The move at a word on its own account. -/
def moveAlone (r : Registry) (w : String) : Move :=
  match r.classify w with
  | .call c => .call c
  | _ => .advance

/-- The move at word `w` in front of the slots `behind`. -/
def move (r : Registry) (w : String) (behind : List Slot) : Move :=
  match behind with
  | [] => r.moveAlone w
  | next :: more =>
    match r.token? next with
    | some (.comment _) => .abandon
    | some (.operator c) =>
      match more with
      | [] => r.moveAlone w
      | right :: tail =>
        match r.token? right with
        | some (.comment _) => .abandon
        | _ => .operate c right tail
    | _ => r.moveAlone w

theorem moveAlone_ne_operate (r : Registry) (w : String) (c : Command) (right : Slot)
    (tail : List Slot) : r.moveAlone w ≠ .operate c right tail := by
  unfold moveAlone
  split <;> simp

/-- An operator is only applied when it is the next live word and another slot follows it. -/
theorem move_eq_operate {r : Registry} {w : String} {behind : List Slot} {c : Command}
    {right : Slot} {tail : List Slot} (h : r.move w behind = .operate c right tail) :
    ∃ op, behind = .word op :: right :: tail ∧ r.classify op = .operator c := by
  cases behind with
  | nil => exact (moveAlone_ne_operate r w c right tail h).elim
  | cons next more =>
    cases next with
    | vacant => exact (moveAlone_ne_operate r w c right tail h).elim
    | word op =>
      simp only [move, token?] at h
      split at h
      · cases h
      · rename_i d hop
        split at h
        · exact (moveAlone_ne_operate r w c right tail h).elim
        · split at h
          · cases h
          · cases h
            exact ⟨op, rfl, Option.some.inj hop⟩
      · exact (moveAlone_ne_operate r w c right tail h).elim

end Registry

namespace Command

/-- A call keeps some of the words behind it, as they stand. -/
theorem portion_snd_suffix {α : Type} (c : Command) (i : Nat) (words : List α) :
    (c.portion i words).2 <:+ words := by
  unfold portion
  split
  · exact List.nil_suffix
  · exact List.drop_suffix _ _
  · split <;> exact List.suffix_refl _

end Command

namespace Reduction

/-- The slots behind a call after it has taken its words: vacant ones, and then the kept ones. -/
def afterCall (behind kept : List Slot) : List Slot :=
  List.replicate (behind.length - kept.length) .vacant ++ kept

theorem length_afterCall {behind kept : List Slot} (h : kept <:+ behind) :
    (afterCall behind kept).length = behind.length := by
  have := h.length_le
  simp [afterCall]
  omega

theorem live_afterCall (behind kept : List Slot) :
    Slot.live (afterCall behind kept) = Slot.live kept := by
  simp [afterCall]

/-- Where nothing is vacant, nothing is vacant in a part. -/
theorem gaps_of_suffix_dense {slots kept : List Slot} (h : kept <:+ Slot.dense slots) :
    Slot.gaps kept = 0 := by
  obtain ⟨front, e⟩ := h
  have := Slot.gaps_dense slots
  rw [← e, Slot.gaps_append] at this
  omega

theorem live_of_suffix_dense {slots kept : List Slot} (h : kept <:+ Slot.dense slots) :
    (Slot.live kept).length = kept.length := by
  have := Slot.length_eq kept
  rw [gaps_of_suffix_dense h] at this
  omega

/-- All slots of a scan from the left, without the vacant ones. -/
def closeUp (passed rest : List Slot) : List Slot := Slot.dense (passed.reverse ++ rest)

theorem live_closeUp (passed rest : List Slot) :
    Slot.live (closeUp passed rest) = (Slot.live passed).reverse ++ Slot.live rest := by
  simp [closeUp]

/-! ### Why the scan ends

The effort still ahead is bounded by the square of the number of slots, the number of
live words and the number of slots still to scan, taken together.  A square suffices
because after closing up both other numbers are at most the number of slots.
-/

/-- A number that every step of a scan makes smaller. -/
def effort (passed rest : List Slot) : Nat :=
  (passed.length + rest.length) * (passed.length + rest.length)
    + ((Slot.live passed).length + (Slot.live rest).length) + rest.length

theorem effort_closeUp (passed more : List Slot) :
    effort [] (closeUp passed more) < effort passed (.vacant :: more) := by
  have hp := Slot.length_eq passed
  have hm := Slot.length_eq more
  have hl : (closeUp passed more).length = (Slot.live passed).length + (Slot.live more).length := by
    simp [closeUp, Slot.length_dense]
  have hq := Nat.mul_le_mul
    (show (Slot.live passed).length + (Slot.live more).length + 1 ≤ passed.length + (more.length + 1)
      by omega)
    (show (Slot.live passed).length + (Slot.live more).length + 1 ≤ passed.length + (more.length + 1)
      by omega)
  simp only [effort, List.length_nil, List.length_cons, Slot.live, live_closeUp, hl,
    List.length_append, List.length_reverse, Nat.zero_add]
  rw [Nat.mul_add, Nat.add_mul, Nat.mul_one, Nat.one_mul] at hq
  omega

theorem effort_operate (passed tail : List Slot) (w op value : String) (right : Slot) :
    effort passed (.word value :: .vacant :: .vacant :: tail)
      < effort passed (.word w :: .word op :: right :: tail) := by
  cases right <;> simp only [effort, Slot.live, List.length_cons] <;> omega

theorem effort_call (passed behind : List Slot) (w value : String) {kept : List Slot}
    (h : kept <:+ Slot.dense behind) :
    effort (.word value :: passed) (afterCall (Slot.dense behind) kept)
      < effort passed (.word w :: behind) := by
  have hl := Slot.length_dense behind
  have hb := Slot.length_eq behind
  have hk := h.length_le
  have hq := Nat.mul_le_mul
    (show passed.length + 1 + (Slot.live behind).length ≤ passed.length + (behind.length + 1) by omega)
    (show passed.length + 1 + (Slot.live behind).length ≤ passed.length + (behind.length + 1) by omega)
  simp only [effort, Slot.live, List.length_cons, live_afterCall, live_of_suffix_dense h,
    length_afterCall h, hl]
  omega

theorem effort_advance (passed behind : List Slot) (w : String) :
    effort (.word w :: passed) behind < effort passed (.word w :: behind) := by
  have e : passed.length + 1 + behind.length = passed.length + (behind.length + 1) := by omega
  simp only [effort, Slot.live, List.length_cons, e]
  omega

/-! ### The scan -/

/--
Scans `rest` and gives the live words that are left together with the outcomes of
all evaluations on the way, oldest first; nothing if the command was abandoned.
`run k c args` evaluates command `c` as the `k`-th of these evaluations.
-/
def sweep (r : Registry) (run : Nat → Command → List Slot → Traced Outcome)
    (passed rest : List Slot) (parts : List Outcome) :
    Traced (Option (List String × List Outcome)) :=
  match rest with
  | [] => pure (some ((Slot.live passed).reverse, parts))
  | .vacant :: more => sweep r run [] (closeUp passed more) parts
  | .word w :: behind =>
    match _move : r.move w behind with
    | .abandon => pure none
    | .operate c right tail => do
      let part ← run parts.length c [.word w, right]
      sweep r run passed (.word part.value :: .vacant :: .vacant :: tail) (parts ++ [part])
    | .call c => do
      let words := Slot.dense behind
      let taken := c.portion passed.length words
      let part ← run parts.length c taken.1
      sweep r run (.word part.value :: passed) (afterCall words taken.2) (parts ++ [part])
    | .advance => sweep r run (.word w :: passed) behind parts
termination_by effort passed rest
decreasing_by
  · exact effort_closeUp passed more
  · obtain ⟨op, rfl, -⟩ := Registry.move_eq_operate _move
    exact effort_operate passed tail w op part.value right
  · exact effort_call passed behind w part.value
      (c.portion_snd_suffix passed.length (Slot.dense behind))
  · exact effort_advance passed behind w

end Reduction

end Eel
