/-
Rounding to places, and the decimals that round back.

Places are counted so that their values grow from each one to the next, by a step that only
depends on how often `2 ^ 52` goes into the place.  `placeBelow` inverts the count: a place is
at or below the one it finds exactly if its value is at or below the given one.

A value rounds to a place if it lies between the midpoints on either side of it, and on a
midpoint if the place is even; `roundsTo` tests for that, and `nearest` looks for the place
without knowing it in advance.  `nearest_eq` says that the search finds what the test accepts.
The shortest decimal of a place passed the test, so reading it gives the place back.
-/
import Eel.Number.Decimal
import Mathlib.Order.Monotone.Basic
import Mathlib.Tactic.Ring

namespace Eel.Number

/-! ### Places and their values -/

theorem units_of_lt {p : Nat} (h : p < 2 ^ 52) : units p = p := if_pos h

theorem units_of_le {p : Nat} (h : 2 ^ 52 ≤ p) :
    units p = (2 ^ 52 + p % 2 ^ 52) * 2 ^ (p / 2 ^ 52 - 1) := if_neg (Nat.not_lt.mpr h)

/-- The value of a place with a full significand `m`. -/
theorem units_normal {m : Nat} (s : Nat) (hlow : 2 ^ 52 ≤ m) (hhigh : m < 2 ^ 53) :
    units (s * 2 ^ 52 + m) = m * 2 ^ s := by
  have hsignificand : 2 ^ 52 + (s * 2 ^ 52 + m) % 2 ^ 52 = m := by omega
  have hshift : (s * 2 ^ 52 + m) / 2 ^ 52 - 1 = s := by omega
  rw [units_of_le (by omega), hsignificand, hshift]

/-- The step from a place to the next one. -/
theorem units_succ (p : Nat) : units (p + 1) = units p + 2 ^ (p / 2 ^ 52 - 1) := by
  rcases Nat.lt_or_ge p (2 ^ 52) with hp | hp
  · have hstep : p / 2 ^ 52 - 1 = 0 := by omega
    rw [units_of_lt hp, hstep]
    rcases Nat.lt_or_ge (p + 1) (2 ^ 52) with hnext | hnext
    · exact units_of_lt hnext
    · obtain rfl : p = 2 ^ 52 - 1 := by omega
      exact units_normal (m := 2 ^ 52) 0 (by decide) (by decide)
  · obtain ⟨s, m, hlow, hhigh, rfl⟩ : ∃ s m, 2 ^ 52 ≤ m ∧ m < 2 ^ 53 ∧ p = s * 2 ^ 52 + m :=
      ⟨p / 2 ^ 52 - 1, 2 ^ 52 + p % 2 ^ 52, by omega, by omega, by omega⟩
    have hstep : (s * 2 ^ 52 + m) / 2 ^ 52 - 1 = s := by omega
    rw [units_normal s hlow hhigh, hstep]
    rcases Nat.lt_or_ge (m + 1) (2 ^ 53) with hnext | hnext
    · rw [Nat.add_assoc, units_normal s (by omega) hnext, Nat.succ_mul]
    · -- The significand is full: the next place starts over with twice the step.
      obtain rfl : m = 2 ^ 53 - 1 := by omega
      have hcarry : s * 2 ^ 52 + (2 ^ 53 - 1) + 1 = (s + 1) * 2 ^ 52 + 2 ^ 52 := by omega
      rw [hcarry, units_normal (s + 1) (by decide) (by decide), pow_succ]
      ring

theorem units_strictMono : StrictMono units := by
  refine strictMono_nat_of_lt_succ fun p => ?_
  rw [units_succ]
  exact Nat.lt_add_of_pos_right (Nat.two_pow_pos _)

/--
A significand `m` at a step of `2 ^ shift` units, as places have them: it fits, and it is full
unless the step is the smallest there is.
-/
structure Canonical (m shift : Nat) : Prop where
  lt : m < 2 ^ 53
  full : 2 ^ 52 ≤ m ∨ shift = 0

theorem Canonical.units_eq {m shift : Nat} (h : Canonical m shift) :
    units (shift * 2 ^ 52 + m) = m * 2 ^ shift := by
  rcases Nat.lt_or_ge m (2 ^ 52) with hm | hm
  · obtain rfl : shift = 0 := h.full.resolve_left (Nat.not_le.mpr hm)
    rw [Nat.zero_mul, Nat.zero_add, units_of_lt hm, pow_zero, Nat.mul_one]
  · exact units_normal shift hm h.lt

theorem Canonical.step_eq {m shift : Nat} (h : Canonical m shift) :
    (shift * 2 ^ 52 + m) / 2 ^ 52 - 1 = shift := by
  obtain ⟨hlt, hfull⟩ := h
  omega

/-- How many binary digits of a value of `n` units do not fit into a significand. -/
def shiftOf (n : Nat) : Nat := n.log2 - 52

theorem canonical_div (n : Nat) : Canonical (n / 2 ^ shiftOf n) (shiftOf n) := by
  constructor
  · rw [Nat.div_lt_iff_lt_mul (Nat.two_pow_pos _), ← pow_add]
    exact Nat.lt_log2_self.trans_le (Nat.pow_le_pow_right Nat.two_pos (by unfold shiftOf; omega))
  · by_cases h : shiftOf n = 0
    · exact .inr h
    · refine .inl ?_
      have hn : n ≠ 0 := by
        rintro rfl
        exact h rfl
      rw [Nat.le_div_iff_mul_le (Nat.two_pow_pos _), ← pow_add,
        show 52 + shiftOf n = n.log2 by unfold shiftOf at h ⊢; omega]
      exact Nat.log2_self_le hn

theorem placeBelow_eq (n : Nat) :
    placeBelow n = shiftOf n * 2 ^ 52 + n / 2 ^ shiftOf n := rfl

/-- A value lies between the place below it and the next one. -/
theorem units_placeBelow (n : Nat) :
    units (placeBelow n) ≤ n ∧ n < units (placeBelow n + 1) := by
  have hcanonical := canonical_div n
  rw [placeBelow_eq, units_succ, hcanonical.units_eq, hcanonical.step_eq]
  exact ⟨Nat.div_mul_le_self n _, Nat.lt_div_mul_add (Nat.two_pow_pos _)⟩

theorem le_placeBelow_iff {p n : Nat} : p ≤ placeBelow n ↔ units p ≤ n := by
  obtain ⟨hbelow, habove⟩ := units_placeBelow n
  constructor
  · intro hp
    exact (units_strictMono.monotone hp).trans hbelow
  · intro hp
    by_contra hlater
    have hnext : units (placeBelow n + 1) ≤ units p :=
      units_strictMono.monotone (Nat.lt_of_not_le hlater)
    omega

/-! ### Rounding to the nearest place -/

section

variable {num den : Nat}

/-- The place that `nearest` starts from. -/
theorem le_start_iff (hden : 0 < den) {p : Nat} :
    p ≤ placeBelow (num / (2 * den)) ↔ 2 * units p * den ≤ num := by
  rw [le_placeBelow_iff, Nat.le_div_iff_mul_le (by omega),
    show units p * (2 * den) = 2 * units p * den by ring]

theorem midpoint_lt (p : Nat) : 2 * units p < midpoint p ∧ midpoint p < 2 * units (p + 1) := by
  have hstep : units p < units (p + 1) := units_strictMono p.lt_succ_self
  unfold midpoint
  omega

/-- **Rounding finds the place that a value rounds to.** -/
theorem nearest_eq {p : Nat} (hden : 0 < den) (hp : 0 < p) (htop : p ≤ top)
    (h : roundsTo p num den = true) : nearest num den = p := by
  obtain ⟨q, rfl⟩ : ∃ q, p = q + 1 := ⟨p - 1, by omega⟩
  have hbounds : midpoint q * den ≤ num ∧ num ≤ midpoint (q + 1) * den := by
    unfold roundsTo at h
    split at h <;> simp at h <;> omega
  have hbelow := Nat.mul_lt_mul_of_pos_right (midpoint_lt q).1 hden
  have habove := Nat.mul_lt_mul_of_pos_right (midpoint_lt (q + 1)).2 hden
  -- The search starts from the place or from the one before it.
  have hstart : q ≤ placeBelow (num / (2 * den)) := (le_start_iff hden).mpr (by omega)
  have hend : ¬ q + 2 ≤ placeBelow (num / (2 * den)) := by
    rw [le_start_iff hden]
    exact Nat.not_le.mpr (hbounds.2.trans_lt habove)
  obtain hplace | hplace : placeBelow (num / (2 * den)) = q ∨
      placeBelow (num / (2 * den)) = q + 1 := by omega
  · simp only [nearest, hplace]
    rcases Nat.lt_trichotomy num (midpoint q * den) with hcmp | hcmp | hcmp
    · omega
    · have hodd : ¬ q % 2 = 0 := by
        intro heven
        rw [roundsTo, if_neg (by omega)] at h
        simp [hcmp] at h
      simpa [Nat.compare_eq_eq.mpr hcmp, hodd] using htop
    · simpa [Nat.compare_eq_gt.mpr hcmp] using htop
  · simp only [nearest, hplace]
    rcases Nat.lt_trichotomy num (midpoint (q + 1) * den) with hcmp | hcmp | hcmp
    · simpa [Nat.compare_eq_lt.mpr hcmp] using htop
    · have heven : (q + 1) % 2 = 0 := by
        by_contra hodd
        rw [roundsTo, if_neg hodd] at h
        simp [hcmp] at h
      simpa [Nat.compare_eq_eq.mpr hcmp, heven] using htop
    · omega

theorem nearest_eq_zero (h : num < den) : nearest num den = 0 := by
  have hstart : placeBelow (num / (2 * den)) = 0 := by
    rw [Nat.div_eq_of_lt (by omega)]
    rfl
  have hcmp : num < midpoint 0 * den := by
    rw [show midpoint 0 = 1 from rfl, Nat.one_mul]
    exact h
  simp [nearest, hstart, Nat.compare_eq_lt.mpr hcmp]

theorem nearest_eq_top (hden : 0 < den) (h : 2 * units top * den ≤ num) :
    nearest num den = top := by
  have hstart : top ≤ placeBelow (num / (2 * den)) := (le_start_iff hden).mpr h
  unfold nearest
  refine Nat.min_eq_right (hstart.trans ?_)
  split
  · exact Nat.le_refl _
  · exact Nat.le_succ _
  · split
    · exact Nat.le_refl _
    · exact Nat.le_succ _

/-- The value of a place rounds to that place. -/
theorem roundsTo_units {p : Nat} (hden : 0 < den) (hp : 0 < p) :
    roundsTo p (2 * units p * den) den = true := by
  obtain ⟨q, rfl⟩ : ∃ q, p = q + 1 := ⟨p - 1, by omega⟩
  have hbelow := Nat.mul_lt_mul_of_pos_right (midpoint_lt q).2 hden
  have habove := Nat.mul_lt_mul_of_pos_right (midpoint_lt (q + 1)).1 hden
  unfold roundsTo
  split
  · simp only [Nat.add_sub_cancel, Bool.and_eq_true, decide_eq_true_eq]
    omega
  · simp only [Nat.add_sub_cancel, Bool.and_eq_true, decide_eq_true_eq]
    omega

theorem nearest_units {p : Nat} (hden : 0 < den) (htop : p ≤ top) :
    nearest (2 * units p * den) den = p := by
  rcases Nat.eq_zero_or_pos p with rfl | hp
  · exact nearest_eq_zero (by simpa using hden)
  · exact nearest_eq hden hp htop (roundsTo_units hden hp)

end

/-! ### Decimals -/

/--
One, in units, is a power of two, and its exact expansion needs that power of five.  The
exponent is kept apart from its value, as the powers are too large to be worked out.
-/
theorem exists_exponent :
    ∃ a, a = 1074 ∧ unitsPerOne = 2 ^ a ∧ Nat.pow 5 1074 = 5 ^ a :=
  ⟨1074, rfl, by decide +kernel, by decide +kernel⟩

theorem unitsPerOne_pos : 0 < unitsPerOne := by
  obtain ⟨a, -, hunit, -⟩ := exists_exponent
  rw [hunit]
  exact Nat.two_pow_pos a

theorem powerOfTen_natCast (k : Nat) :
    powerOfTen k = (10 ^ k * (2 * unitsPerOne), 1) := by
  rw [powerOfTen, if_pos (Int.natCast_nonneg k), Int.toNat_natCast]
  rfl

theorem powerOfTen_zero : powerOfTen 0 = (2 * unitsPerOne, 1) := by
  simpa using powerOfTen_natCast 0

theorem powerOfTen_neg {k : Nat} (hk : 0 < k) :
    powerOfTen (-(k : Int)) = (2 * unitsPerOne, 10 ^ k) := by
  rw [powerOfTen, if_neg (by omega), Int.neg_neg, Int.toNat_natCast]
  rfl

theorem powerOfTen_pos (k : Int) : 0 < (powerOfTen k).2 := by
  unfold powerOfTen
  split
  · exact Nat.one_pos
  · exact Nat.pow_pos (by decide)

/-- Powers of ten beyond the range of the format. -/
theorem units_top_le {k : Nat} (hk : 400 < k) : units top ≤ 10 ^ k * unitsPerOne := by
  obtain ⟨a, ha, hunit, -⟩ := exists_exponent
  obtain ⟨s, hs, htop⟩ : ∃ s, s = 2046 ∧ top = s * 2 ^ 52 + 2 ^ 52 := ⟨2046, rfl, by decide⟩
  calc units top = 2 ^ 52 * 2 ^ s := by rw [htop, units_normal s (by decide) (by decide)]
    _ = 2 ^ (52 + s) := (pow_add _ _ _).symm
    _ ≤ 2 ^ (3 * k + a) := Nat.pow_le_pow_right Nat.two_pos (by omega)
    _ = (2 ^ 3) ^ k * unitsPerOne := by rw [pow_add, pow_mul, hunit]
    _ ≤ 10 ^ k * unitsPerOne := Nat.mul_le_mul_right _ (Nat.pow_le_pow_left (by decide) k)

/-- Powers of ten that no digits bring back into the range of the format. -/
theorem mul_unit_lt {n k : Nat} (hk : n.log2 + 1100 < k) : n * (2 * unitsPerOne) < 10 ^ k := by
  obtain ⟨a, ha, hunit, -⟩ := exists_exponent
  calc n * (2 * unitsPerOne) < 2 ^ (n.log2 + 1) * (2 * unitsPerOne) :=
        Nat.mul_lt_mul_of_pos_right Nat.lt_log2_self (Nat.mul_pos Nat.two_pos unitsPerOne_pos)
    _ = 2 ^ (n.log2 + 1 + (a + 1)) := by rw [hunit, pow_add _ _ (a + 1), pow_succ' 2 a]
    _ ≤ 2 ^ k := Nat.pow_le_pow_right Nat.two_pos (by omega)
    _ ≤ 10 ^ k := Nat.pow_le_pow_left (by decide) k

/-- A decimal is read as the nearest place, however large its exponent. -/
theorem Decimal.place_eq {d : Decimal} (hd : 0 < d.digits) :
    d.place = nearest (d.digits * (powerOfTen d.exponent).1) (powerOfTen d.exponent).2 := by
  obtain ⟨n, e⟩ := d
  simp only at hd
  simp only [Decimal.place, if_neg (Nat.pos_iff_ne_zero.mp hd)]
  split
  · obtain ⟨k, rfl⟩ : ∃ k : Nat, e = k := ⟨e.toNat, by omega⟩
    rw [powerOfTen_natCast]
    refine (nearest_eq_top Nat.one_pos ?_).symm
    calc 2 * units top * 1 ≤ 2 * (10 ^ k * unitsPerOne) * 1 :=
          Nat.mul_le_mul_right _ (Nat.mul_le_mul_left _ (units_top_le (by omega)))
      _ = 10 ^ k * (2 * unitsPerOne) := by ring
      _ ≤ n * (10 ^ k * (2 * unitsPerOne)) := Nat.le_mul_of_pos_left _ hd
  split
  · obtain ⟨k, rfl⟩ : ∃ k : Nat, e = -(k : Int) := ⟨(-e).toNat, by omega⟩
    rw [powerOfTen_neg (by omega)]
    exact (nearest_eq_zero (mul_unit_lt (by omega))).symm
  · rfl

/-- Zeros at the end of the digits are as good as a larger exponent. -/
theorem Decimal.place_trailing {n : Nat} (hn : 0 < n) (k : Nat) :
    (⟨n * 10 ^ k, 0⟩ : Decimal).place = (⟨n, k⟩ : Decimal).place := by
  rw [Decimal.place_eq (d := ⟨n * 10 ^ k, 0⟩) (Nat.mul_pos hn (Nat.pow_pos (by decide))),
    Decimal.place_eq (d := ⟨n, k⟩) hn, powerOfTen_zero, powerOfTen_natCast, Nat.mul_assoc]

/-- A whole number within the format is read as the place with its value. -/
theorem Decimal.place_whole {p n : Nat} (hn : 0 < n) (htop : p ≤ top)
    (h : units p = n * unitsPerOne) : (⟨n, 0⟩ : Decimal).place = p := by
  rw [Decimal.place_eq (d := ⟨n, 0⟩) hn, powerOfTen_zero,
    show n * (2 * unitsPerOne) = 2 * units p * 1 by rw [h]; ring]
  exact nearest_units Nat.one_pos htop

/-- The exact expansion of a place's value is read as that place. -/
theorem Decimal.place_exact {p : Nat} (hp : 0 < p) (htop : p ≤ top) :
    0 < units p * Nat.pow 5 1074 ∧
      (⟨units p * Nat.pow 5 1074, -1074⟩ : Decimal).place = p := by
  obtain ⟨a, ha, hunit, hfive⟩ := exists_exponent
  have hexpansion : (⟨units p * Nat.pow 5 1074, -1074⟩ : Decimal) =
      ⟨units p * 5 ^ a, -(a : Int)⟩ :=
    congrArg₂ Decimal.mk (congrArg (units p * ·) hfive) (by omega)
  have hdigits : 0 < units p * 5 ^ a := Nat.mul_pos (units_strictMono hp) (Nat.pow_pos (by decide))
  have hvalue : units p * 5 ^ a * (2 * unitsPerOne) = 2 * units p * 10 ^ a := by
    rw [hunit, show 10 = 5 * 2 from rfl, mul_pow]
    ring
  refine ⟨hfive ▸ hdigits, ?_⟩
  rw [hexpansion, Decimal.place_eq (d := ⟨units p * 5 ^ a, -(a : Int)⟩) hdigits]
  simp only [powerOfTen_neg (k := a) (by omega), hvalue]
  exact nearest_units (Nat.pow_pos (by decide)) htop

/-! ### Shortest decimals -/

theorem roundsTo_of_multiple? {p n : Nat} {k : Int} (h : multiple? p k = some n) :
    roundsTo p (n * (powerOfTen k).1) (powerOfTen k).2 = true := by
  unfold multiple? at h
  simp only at h
  split at h
  · cases h
  · rename_i hbelow _
    obtain rfl := Option.some.inj h
    exact hbelow
  · rename_i _ habove
    obtain rfl := Option.some.inj h
    exact habove
  · rename_i hbelow habove
    split at h
    · obtain rfl := Option.some.inj h
      exact hbelow
    · obtain rfl := Option.some.inj h
      exact habove
    · obtain rfl := Option.some.inj h
      split
      · exact hbelow
      · exact habove

/-- Zero rounds to no place but zero. -/
theorem pos_of_roundsTo {p num den : Nat} (hden : 0 < den) (hp : 0 < p)
    (h : roundsTo p num den = true) : 0 < num := by
  obtain ⟨q, rfl⟩ : ∃ q, p = q + 1 := ⟨p - 1, by omega⟩
  have hmiddle : 0 < midpoint q * den := Nat.mul_pos (by have := midpoint_lt q; omega) hden
  unfold roundsTo at h
  split at h <;> simp at h <;> omega

/-- Whatever the search comes to, it has a digit other than zero and is read as the place. -/
theorem place_shortestFrom {p : Nat} (hp : 0 < p) (htop : p ≤ top) (tries : Nat) (k : Int) :
    0 < (shortestFrom p tries k).digits ∧ (shortestFrom p tries k).place = p := by
  induction tries generalizing k with
  | zero => exact Decimal.place_exact hp htop
  | succ tries ih =>
    rw [shortestFrom]
    split
    · rename_i n hn
      have hrounds := roundsTo_of_multiple? hn
      have hpos : 0 < n := Nat.pos_of_mul_pos_right (pos_of_roundsTo (powerOfTen_pos k) hp hrounds)
      refine ⟨hpos, ?_⟩
      rw [Decimal.place_eq (d := ⟨n, k⟩) hpos]
      exact nearest_eq (powerOfTen_pos k) hp htop hrounds
    · exact ih (k - 1)

/-- **The shortest decimal of a place is read as that place.** -/
theorem place_shortest {p : Nat} (hp : 0 < p) (htop : p ≤ top) :
    0 < (shortest p).digits ∧ (shortest p).place = p :=
  place_shortestFrom hp htop 22 (powerAbove p)

end Eel.Number
