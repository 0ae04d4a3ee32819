/-
Where the gaps of a scan are.

A tape is a list of slots with a position in it.  At every stage of a scan the gaps in that list
stand together in one row, which starts at the position or one behind it.  So an operator that
is next to the scan has no gap behind it, and when the scan is over there are no gaps.

What is handed on is cut out of words without gaps: the operands of an operator are on
either side of it, and what a call takes is taken after closing up.  That matters because
an evaluation passes over gaps in silence, and one that got a gap would go on with an operand
less.
-/
import Eel.Builtin.Catalogue
import Eel.Proofs.Rewriting

namespace Eel

namespace Reduction

namespace Tape

/-- All slots of the tape, from left to right. -/
def slots (t : Tape) : List Slot := t.passed.reverse ++ t.rest

/-- The number of slots to the left of the scan. -/
def position (t : Tape) : Nat := t.passed.length

/-- The gaps are `count` slots in a row, the first of them at `start`. -/
def GapsFrom (t : Tape) (start count : Nat) : Prop :=
  ∀ k, t.slots[k]? = some .vacant ↔ start ≤ k ∧ k < start + count

/-- The gaps are in one row, at the scan or one behind it, if there are any. -/
def GapsTogether (t : Tape) : Prop :=
  ∃ start count, t.GapsFrom start count ∧
    (count = 0 ∨ start = t.position ∨ start = t.position + 1)

end Tape

/-! ### Tidy tapes as lists -/

theorem getElem?_eq_vacant_iff (front words : List String) (gaps k : Nat) :
    (front.map Slot.word ++ (List.replicate gaps .vacant ++ words.map .word))[k]? = some .vacant ↔
      front.length ≤ k ∧ k < front.length + gaps := by
  have hword : ∀ (ws : List String) (j : Nat), (ws.map Slot.word)[j]? ≠ some .vacant := by
    intro ws j h
    obtain ⟨w, -, hw⟩ := List.mem_map.mp (List.mem_of_getElem? h)
    cases hw
  rcases Nat.lt_or_ge k front.length with hfront | hfront
  · rw [List.getElem?_append_left (by simpa using hfront)]
    simp only [hword, false_iff]
    omega
  rw [List.getElem?_append_right (by simpa using hfront), List.length_map]
  rcases Nat.lt_or_ge (k - front.length) gaps with hgaps | hgaps
  · rw [List.getElem?_append_left (by simpa using hgaps), List.getElem?_replicate, if_pos hgaps]
    simp only [true_iff]
    omega
  · rw [List.getElem?_append_right (by simpa using hgaps)]
    simp only [hword, false_iff]
    omega

/-- **The gaps of a tidy tape stand together.** -/
theorem Tidy.gapsTogether {t : Tape} (h : Tidy t) : t.GapsTogether := by
  cases h with
  | atScan front gaps words =>
    refine ⟨front.length, gaps, fun k => ?_, .inr (.inl (by simp [Tape.position]))⟩
    rw [Tape.slots, List.reverse_reverse]
    exact getElem?_eq_vacant_iff front words gaps k
  | behindWord front w gaps words =>
    refine ⟨front.length + 1, gaps, fun k => ?_, .inr (.inr (by simp [Tape.position]))⟩
    have hslots : Tape.slots ⟨(front.map .word).reverse,
        .word w :: (List.replicate gaps .vacant ++ words.map .word)⟩ =
        (front ++ [w]).map .word ++ (List.replicate gaps .vacant ++ words.map .word) := by
      simp [Tape.slots]
    rw [hslots, getElem?_eq_vacant_iff, List.length_append, List.length_singleton]

section

variable {r : Registry} {t : Tape}

/-- Gaps that stand together leave none behind the word that is next to the scan. -/
theorem Tape.GapsTogether.ne_vacant (h : t.GapsTogether) {op : String} {right : Slot}
    (hnext : t.slots[t.position + 1]? = some (.word op))
    (hright : t.slots[t.position + 2]? = some right) : right ≠ .vacant := by
  rintro rfl
  obtain ⟨start, count, hgaps, hstart⟩ := h
  have hafter := (hgaps _).mp hright
  -- The row would reach over the word between its start and the gap.
  have hnone : ¬ (start ≤ t.position + 1 ∧ t.position + 1 < start + count) := by
    rw [← hgaps, hnext]
    simp
  omega

/-- An operator is asked for with both operands, and nothing is asked for with a gap. -/
theorem Tidy.asked_words (ht : Tidy t) {c : Command} {args : List Slot} {next : String → Tape}
    (h : Asks r t c args next) :
    .vacant ∉ args ∧ (r.operator? c.name = some c → ∃ a b, args = [.word a, .word b]) := by
  cases h with
  | operate passed hmove =>
    obtain ⟨front, b, words, -, rfl, -⟩ := ht.exists_of_operate hmove
    exact ⟨by simp, fun _ => ⟨_, b, rfl⟩⟩
  | @call passed w behind c hmove =>
    constructor
    · intro hmem
      have hwords := (portion_fst_isPrefix c passed.length (Slot.dense behind)).subset hmem
      simp [Slot.dense] at hwords
    · -- What a call names is no operator.
      intro hoperator
      obtain ⟨-, hplain⟩ := Registry.called?_name
        (Registry.called?_of_classify (Registry.classify_of_move_call hmove))
      obtain ⟨-, hdyadic⟩ := Option.filter_eq_some_iff.mp hoperator
      obtain ⟨-, hcall⟩ := Option.filter_eq_some_iff.mp hplain
      simp [Command.isDyadic, Command.isPlain] at hdyadic hcall
      simp [hdyadic] at hcall

/-- A command is only abandoned for a word right behind the scan. -/
theorem exists_of_abandon {w : String} {behind : List Slot} (h : r.move w behind = .abandon) :
    ∃ next more, behind = .word next :: more := by
  have halone : r.moveAlone w ≠ .abandon := by
    unfold Registry.moveAlone
    split <;> simp
  match behind, h with
  | [], h => exact absurd h halone
  | .vacant :: _, h => exact absurd h halone
  | .word next :: more, _ => exact ⟨next, more, rfl⟩

/-- Where a scan of a tidy tape is over, no gaps are left. -/
theorem Tidy.slots_of_ends (ht : Tidy t) {left : Option (List String)} (h : Ends r t left) :
    .vacant ∉ t.slots ∧ ∀ words ∈ left, t.slots = words.map .word := by
  cases h with
  | finish passed =>
    generalize hend : (⟨passed, []⟩ : Tape) = t at ht
    cases ht with
    | behindWord front w gaps words => simp at hend
    | atScan front gaps words =>
      obtain ⟨rfl, hrest⟩ := Tape.mk.inj hend
      simp [Tape.slots, ← hrest]
  | @abandon passed w behind hmove =>
    obtain ⟨front, gaps, words, rfl, hbehind⟩ := ht.exists_of_word
    obtain ⟨next, more, rfl⟩ := exists_of_abandon hmove
    cases gaps with
    | succ n => simp [List.replicate_succ] at hbehind
    | zero => simp [Tape.slots, hbehind]

end

/--
**The gaps stand together at every stage of a scan.**  So an operator next to the scan has
a word behind it if it has anything, what is asked for is handed on without gaps, an
operator with both its operands, and the scan ends with words alone.
-/
theorem gaps_of_reaches (r : Registry) (run : Nat → Command → List Slot → Traced Outcome)
    (words : List String) :
    (∃ s, Reaches r run (.start words) s ∧
      Stops r run s (sweep r run [] (words.map .word) [])) ∧
    ∀ s, Reaches r run (.start words) s →
      s.tape.GapsTogether ∧
      (∀ op c right, s.tape.slots[s.tape.position + 1]? = some (.word op) →
        r.classify op = .operator c → s.tape.slots[s.tape.position + 2]? = some right →
        right ≠ .vacant) ∧
      (∀ c args next, Asks r s.tape c args next →
        .vacant ∉ args ∧ (r.operator? c.name = some c → ∃ a b, args = [.word a, .word b])) ∧
      ∀ left, Ends r s.tape left →
        .vacant ∉ s.tape.slots ∧ ∀ rest ∈ left, s.tape.slots = rest.map .word := by
  refine ⟨reaches_stop r run (.start words), fun s hs => ?_⟩
  have htidy := tidy_of_reaches hs
  refine ⟨htidy.gapsTogether, fun op c right hop _ hright => ?_, fun c args next hasks => ?_,
    fun left hends => ?_⟩
  · exact htidy.gapsTogether.ne_vacant hop hright
  · exact htidy.asked_words hasks
  · exact htidy.slots_of_ends hends

/--
An operator makes a call with the operator's gaps right behind it.  The call takes its words
from beyond the gaps and leaves gaps of its own, which are closed up before the scan ends.
-/
theorem gaps_of_reaches_join :
    ∃ s c next s',
      Reaches Builtin.registry (nested Builtin.registry .initial 2 (.constant 0))
        (.start ["-", "..", "join", "b", "c"]) s ∧
      s.tape.slots = [.word "-join", .vacant, .vacant, .word "b", .word "c"] ∧
      s.tape.GapsTogether ∧ Asks Builtin.registry s.tape c [.word "b", .word "c"] next ∧
      .vacant ∉ [Slot.word "b", Slot.word "c"] ∧
      Reaches Builtin.registry (nested Builtin.registry .initial 2 (.constant 0))
        (.start ["-", "..", "join", "b", "c"]) s' ∧
      Ends Builtin.registry s'.tape (some ["bc"]) ∧ s'.tape.slots = [.word "bc"] := by
  obtain ⟨-, hstages⟩ := gaps_of_reaches Builtin.registry
    (nested Builtin.registry .initial 2 (.constant 0)) ["-", "..", "join", "b", "c"]
  have hdashed : (nested Builtin.registry .initial 2 (.constant 0) 0
      (Builtin.betweenTexts ".." (· ++ ·)) [.word "-", .word "join"]).result =
        .ok (.ofValue "-join") := by decide +kernel
  have hjoined : (nested Builtin.registry .initial 2 (.constant 0) 1
      (Builtin.binary "join" (· ++ ·)) [.word "b", .word "c"]).result = .ok (.ofValue "bc") := by
    decide +kernel
  generalize nested Builtin.registry .initial 2 (.constant 0) = run at hstages hdashed hjoined ⊢
  have hoperate : Asks Builtin.registry (.ofWords ["-", "..", "join", "b", "c"])
      (Builtin.betweenTexts ".." (· ++ ·)) [.word "-", .word "join"]
      fun value => ⟨[], [.word value, .vacant, .vacant, .word "b", .word "c"]⟩ := .operate [] rfl
  have hcall : Asks Builtin.registry
      ⟨[], [.word "-join", .vacant, .vacant, .word "b", .word "c"]⟩
      (Builtin.binary "join" (· ++ ·)) [.word "b", .word "c"]
      fun value => ⟨[.word value], [.vacant, .vacant]⟩ := .call [] rfl
  have hcalled : Reaches Builtin.registry run (.start ["-", "..", "join", "b", "c"]) _ :=
    .single (.asked [] hoperate hdashed)
  have hover : Reaches Builtin.registry run (.start ["-", "..", "join", "b", "c"])
      ⟨⟨[.word "bc"], []⟩, _, _⟩ :=
    ((hcalled.tail (.asked _ hcall hjoined)).tail (.quiet _ _ (.closeUp _ _))).tail
      (.quiet _ _ (.advance [] rfl))
  obtain ⟨htogether, -, hasked, -⟩ := hstages _ hcalled
  obtain ⟨-, -, -, hended⟩ := hstages _ hover
  have hends : Ends Builtin.registry ⟨[.word "bc"], []⟩ (some ["bc"]) := .finish [.word "bc"]
  exact ⟨_, _, _, _, hcalled, rfl, htogether, hcall, (hasked _ _ _ hcall).1, hover, hends,
    (hended _ hends).2 _ rfl⟩

end Reduction

end Eel
