/-
What fits a pattern.

`Pattern.Describes a P` says that the fronts that fit `a` are the texts with `P`.  A pattern
only answers yes or no about a whole text, with a test for what follows the front, so this is
said for all tests at once: the answer is yes exactly if the text can be cut into a front with
`P` and a rest that passes.  How long the fronts are that the pattern tries first does not
matter then, and each way of putting patterns together gets one lemma.
-/
import Eel.Text.Pattern

namespace Eel.Text.Pattern

/-- The fronts that fit `a` are the texts with `P`. -/
def Describes (a : Pattern) (P : List Char → Prop) : Prop :=
  ∀ test cs, a test cs = true ↔ ∃ front back, front ++ back = cs ∧ P front ∧ test back = true

variable {a b : Pattern} {p : Char → Bool} {P Q : List Char → Prop}

/-- A whole text fits if it is one of the fronts. -/
theorem Describes.fits_iff (h : Describes a P) (cs : List Char) : a.fits cs = true ↔ P cs := by
  constructor
  · intro hfits
    obtain ⟨front, back, rfl, hfront, hback⟩ := (h _ _).mp hfits
    rwa [List.isEmpty_iff.mp hback, List.append_nil]
  · intro hcs
    exact (h _ _).mpr ⟨cs, [], List.append_nil cs, hcs, rfl⟩

theorem Describes.congr (h : Describes a P) (hPQ : ∀ cs, P cs ↔ Q cs) : Describes a Q := by
  intro test cs
  simp only [h test cs, hPQ]

theorem describes_one (p : Char → Bool) :
    Describes (one p) fun cs => ∃ c, p c = true ∧ cs = [c] := by
  intro test cs
  constructor
  · intro h
    cases cs with
    | nil => cases h
    | cons c cs =>
      rw [one, Bool.and_eq_true] at h
      exact ⟨[c], cs, rfl, ⟨c, h.1, rfl⟩, h.2⟩
  · rintro ⟨-, back, rfl, ⟨c, hc, rfl⟩, hback⟩
    simp [one, hc, hback]

theorem Describes.seq (ha : Describes a P) (hb : Describes b Q) :
    Describes (seq a b) fun cs => ∃ front back, front ++ back = cs ∧ P front ∧ Q back := by
  intro test cs
  constructor
  · intro h
    obtain ⟨front, rest, rfl, hfront, hrest⟩ := (ha _ _).mp h
    obtain ⟨middle, back, rfl, hmiddle, hback⟩ := (hb _ _).mp hrest
    exact ⟨front ++ middle, back, List.append_assoc .., ⟨front, middle, rfl, hfront, hmiddle⟩,
      hback⟩
  · rintro ⟨-, back, rfl, ⟨front, middle, rfl, hfront, hmiddle⟩, hback⟩
    exact (ha _ _).mpr ⟨front, middle ++ back, (List.append_assoc ..).symm, hfront,
      (hb _ _).mpr ⟨middle, back, rfl, hmiddle, hback⟩⟩

theorem Describes.either (ha : Describes a P) (hb : Describes b Q) :
    Describes (either a b) fun cs => P cs ∨ Q cs := by
  intro test cs
  rw [Pattern.either, Bool.or_eq_true, ha, hb, ← exists_or]
  simp only [← exists_or, ← and_or_left, ← or_and_right]

theorem Describes.optional (ha : Describes a P) :
    Describes (optional a) fun cs => cs = [] ∨ P cs := by
  intro test cs
  rw [Pattern.optional, Bool.or_eq_true, ha]
  constructor
  · rintro (⟨front, back, hcs, hfront, hback⟩ | htest)
    · exact ⟨front, back, hcs, .inr hfront, hback⟩
    · exact ⟨[], cs, rfl, .inl rfl, htest⟩
  · rintro ⟨front, back, hcs, rfl | hfront, hback⟩
    · exact .inr (by rwa [← hcs])
    · exact .inl ⟨front, back, hcs, hfront, hback⟩

theorem describes_word (w : List Char) : Describes (word w) (· = w) := by
  induction w with
  | nil =>
    intro test cs
    exact ⟨fun h => ⟨[], cs, rfl, rfl, h⟩, fun ⟨_, _, hcs, hfront, hback⟩ => by
      rwa [← hcs, hfront]⟩
  | cons c w ih =>
    refine ((describes_one (· = c)).seq ih).congr fun cs => ?_
    simp [eq_comm]

/-- Here the induction is on the text: of the fronts of its rest, the first character makes
longer ones, and the empty front is there in any case. -/
theorem describes_many (p : Char → Bool) : Describes (many p) fun cs => ∀ c ∈ cs, p c = true := by
  intro test cs
  induction cs with
  | nil =>
    constructor
    · intro h
      exact ⟨[], [], rfl, List.forall_mem_nil _, h⟩
    · rintro ⟨front, back, hcs, -, hback⟩
      rw [(List.append_eq_nil_iff.mp hcs).2] at hback
      exact hback
  | cons c cs ih =>
    rw [many, Bool.or_eq_true, Bool.and_eq_true, ih]
    constructor
    · rintro (⟨hc, front, back, rfl, hfront, hback⟩ | htest)
      · exact ⟨c :: front, back, rfl, List.forall_mem_cons.mpr ⟨hc, hfront⟩, hback⟩
      · exact ⟨[], c :: cs, rfl, List.forall_mem_nil _, htest⟩
    · rintro ⟨front, back, hcs, hfront, hback⟩
      cases front with
      | nil => exact .inr (by rwa [← hcs])
      | cons d front =>
        obtain ⟨rfl, rfl⟩ := List.cons.inj hcs
        obtain ⟨hd, hfront⟩ := List.forall_mem_cons.mp hfront
        exact .inl ⟨hd, front, back, rfl, hfront, hback⟩

end Eel.Text.Pattern
