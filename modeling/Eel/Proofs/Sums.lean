/-
A sum of two numbers is their exact sum, rounded to the nearest place.

Addition is given by a step from one form to another: the summands are unpacked into significands
and exponents, added as whole numbers, cut to the length of a significand bit by bit, and packed
into a word again.  None of that shows in the numbers that the rest of the development is about,
which have a sign and a place.  So each form is tied to places once: `stored_finite` says where a
significand is stored, `exists_unpack` where it comes from, and `exists_round` that the bits which
are dropped leave the nearest place behind.

`rounded` says what that does to a value: all digits behind the first fifty-three are rounded
away, a half going to even.  The unit does not matter for it, which is why whole numbers and
halves, that are huge when counted in the smallest step, can be rounded as they are.
-/
import Eel.Proofs.Doubles
import Eel.Proofs.Rounding

namespace Eel.Number

open Float.Model (Format UnpackedFloat totalExponent)
open Float.Model.UnpackedFloat

/-! ### Halves go to even -/

theorem compare_congr {a b c d : Nat} (hlt : a < b ↔ c < d) (heq : a = b ↔ c = d) :
    compare a b = compare c d := by
  change compareOfLessAndEq a b = compareOfLessAndEq c d
  simp only [compareOfLessAndEq, hlt, heq]

/-- The whole number nearest to `n / d`, a half going to even. -/
def halfEven (n d : Nat) : Nat :=
  match compare (2 * (n % d)) d with
  | .lt => n / d
  | .gt => n / d + 1
  | .eq => if n / d % 2 = 0 then n / d else n / d + 1

theorem halfEven_bounds (n d : Nat) : n / d ≤ halfEven n d ∧ halfEven n d ≤ n / d + 1 := by
  unfold halfEven
  split
  · omega
  · omega
  · split <;> omega

/-- A common factor does not matter. -/
theorem halfEven_mul {f : Nat} (hf : 0 < f) (n d : Nat) :
    halfEven (n * f) (d * f) = halfEven n d := by
  have hcompare : compare (2 * (n % d * f)) (d * f) = compare (2 * (n % d)) d := by
    rw [← Nat.mul_assoc]
    exact compare_congr (Nat.mul_lt_mul_right hf) (Nat.mul_left_inj hf.ne')
  rw [halfEven, halfEven, Nat.mul_mod_mul_right, Nat.mul_div_mul_right _ _ hf, hcompare]

theorem halfEven_one (n : Nat) : halfEven n 1 = n := by
  rw [halfEven, Nat.mod_one, Nat.div_one]
  rfl

/-! ### Values with a full significand -/

/-- A value in units with all digits behind the significand rounded away. -/
def rounded (n : Nat) : Nat := halfEven n (2 ^ shiftOf n) * 2 ^ shiftOf n

/-- The significand may also be the one that rounding has made one digit too long. -/
theorem Canonical.units_succ_eq {m shift : Nat} (h : Canonical m shift) :
    units (shift * 2 ^ 52 + (m + 1)) = (m + 1) * 2 ^ shift := by
  rw [← Nat.add_assoc, units_succ, h.units_eq, h.step_eq, Nat.succ_mul]

/-- Rounding a whole number of units to a place rounds its significand. -/
theorem nearest_whole (n : Nat) :
    nearest (2 * n) 1 = min (shiftOf n * 2 ^ 52 + halfEven n (2 ^ shiftOf n)) top := by
  have hcanonical := canonical_div n
  have hmidpoint : compare (2 * n) (midpoint (placeBelow n) * 1) =
      compare (2 * (n % 2 ^ shiftOf n)) (2 ^ shiftOf n) := by
    have hdiv := Nat.div_add_mod' n (2 ^ shiftOf n)
    rw [placeBelow_eq, midpoint, units_succ, hcanonical.units_eq, hcanonical.step_eq]
    exact compare_congr (by omega) (by omega)
  have hparity : placeBelow n % 2 = n / 2 ^ shiftOf n % 2 := by
    rw [placeBelow_eq]
    omega
  have hstart : 2 * n / (2 * 1) = n := by omega
  simp only [nearest, hstart, hmidpoint, hparity]
  rw [placeBelow_eq, halfEven]
  cases compare (2 * (n % 2 ^ shiftOf n)) (2 ^ shiftOf n) with
  | lt => rfl
  | gt => exact congrArg (min · top) (Nat.add_assoc _ _ 1)
  | eq =>
    simp only
    split
    · rfl
    · rw [Nat.add_assoc]

/-- The value of the place that a whole number of units rounds to. -/
theorem units_nearest {n : Nat} (h : n < units top) : units (nearest (2 * n) 1) = rounded n := by
  have hcanonical := canonical_div n
  have hbelow : placeBelow n < top := by
    rw [← Nat.not_le, le_placeBelow_iff, Nat.not_le]
    exact h
  rw [placeBelow_eq] at hbelow
  obtain ⟨hlow, hhigh⟩ := halfEven_bounds n (2 ^ shiftOf n)
  rw [nearest_whole, Nat.min_eq_left (by omega), rounded]
  obtain hsame | hnext : halfEven n (2 ^ shiftOf n) = n / 2 ^ shiftOf n ∨
      halfEven n (2 ^ shiftOf n) = n / 2 ^ shiftOf n + 1 := by omega
  · rw [hsame, hcanonical.units_eq]
  · rw [hnext, hcanonical.units_succ_eq]

theorem log2_mul_two_pow {n : Nat} (hn : n ≠ 0) (k : Nat) : (n * 2 ^ k).log2 = n.log2 + k := by
  rw [Nat.log2_eq_iff (Nat.mul_ne_zero hn (Nat.two_pow_pos k).ne'), Nat.add_right_comm,
    pow_add _ n.log2, pow_add _ (n.log2 + 1)]
  exact ⟨Nat.mul_le_mul_right _ (Nat.log2_self_le hn),
    Nat.mul_lt_mul_of_pos_right Nat.lt_log2_self (Nat.two_pow_pos k)⟩

theorem rounded_of_lt {n : Nat} (h : n < 2 ^ 53) : rounded n = n := by
  have hshift : shiftOf n = 0 := by
    rcases Nat.eq_zero_or_pos n with rfl | hn
    · rfl
    · have hlog := (Nat.log2_lt hn.ne').mpr h
      unfold shiftOf
      omega
  rw [rounded, hshift, pow_zero, halfEven_one, Nat.mul_one]

/-- Rounding does not depend on the unit that a value is counted in. -/
theorem rounded_mul_two_pow (n k : Nat) : rounded (n * 2 ^ k) = rounded n * 2 ^ k := by
  rcases Nat.eq_zero_or_pos n with rfl | hn
  · rw [Nat.zero_mul, rounded_of_lt (n := 0) (by decide), Nat.zero_mul]
  have hlog := log2_mul_two_pow hn.ne' k
  rcases Nat.lt_or_ge n.log2 52 with hshort | hlong
  · -- All digits of `n` fit into a significand, and the product only has more zeros behind them.
    have hshift : shiftOf (n * 2 ^ k) ≤ k := by
      unfold shiftOf
      omega
    obtain ⟨l, hl⟩ := Nat.exists_eq_add_of_le' hshift
    have hnumber : n * 2 ^ k = n * 2 ^ l * 2 ^ shiftOf (n * 2 ^ k) := by
      rw [Nat.mul_assoc, ← pow_add, ← hl]
    have hexact : halfEven (n * 2 ^ k) (2 ^ shiftOf (n * 2 ^ k)) = n * 2 ^ l := by
      have hscale := halfEven_mul (Nat.two_pow_pos (shiftOf (n * 2 ^ k))) (n * 2 ^ l) 1
      rwa [← hnumber, Nat.one_mul, halfEven_one] at hscale
    have hlt : n < 2 ^ 53 := (Nat.log2_lt hn.ne').mp (by omega)
    rw [rounded, hexact, ← hnumber, rounded_of_lt hlt]
  · have hshift : shiftOf (n * 2 ^ k) = shiftOf n + k := by
      unfold shiftOf
      omega
    rw [rounded, rounded, hshift, pow_add, halfEven_mul (Nat.two_pow_pos k), Nat.mul_assoc]

theorem rounded_of_le {n : Nat} (h : n ≤ 2 ^ 53) : rounded n = n := by
  rcases Nat.lt_or_eq_of_le h with hlt | rfl
  · exact rounded_of_lt hlt
  · decide

/-- Values far below the end of the format. -/
theorem mul_two_pow_lt_top {n k : Nat} (hn : n < 2 ^ 60) (hk : k < 1100) :
    n * 2 ^ k < units top := by
  obtain ⟨s, hs, htop⟩ : ∃ s, s = 2046 ∧ top = s * 2 ^ 52 + 2 ^ 52 := ⟨2046, rfl, by decide⟩
  calc n * 2 ^ k < 2 ^ 60 * 2 ^ k := Nat.mul_lt_mul_of_pos_right hn (Nat.two_pow_pos k)
    _ = 2 ^ (60 + k) := (pow_add _ _ _).symm
    _ ≤ 2 ^ (52 + s) := Nat.pow_le_pow_right Nat.two_pos (by omega)
    _ = 2 ^ 52 * 2 ^ s := pow_add _ _ _
    _ = units top := by rw [htop, units_normal s (by decide) (by decide)]

/-- A value of either sign with all digits behind the significand rounded away. -/
def roundedInt (n : Int) : Int :=
  if n < 0 then -(rounded n.natAbs : Int) else rounded n.natAbs

theorem roundedInt_of_natAbs_le {n : Int} (h : n.natAbs ≤ 2 ^ 53) : roundedInt n = n := by
  rw [roundedInt, rounded_of_le h]
  split <;> omega

theorem roundedInt_mul_two_pow (n : Int) (k : Nat) :
    roundedInt (n * (2 ^ k : Nat)) = roundedInt n * (2 ^ k : Nat) := by
  have hpos : (0 : Int) < (2 ^ k : Nat) := by exact_mod_cast Nat.two_pow_pos k
  have hsign : n * (2 ^ k : Nat) < 0 ↔ n < 0 := by
    rw [Int.mul_neg_iff]
    omega
  rw [roundedInt, roundedInt, Int.natAbs_mul, Int.natAbs_natCast, rounded_mul_two_pow]
  simp only [hsign]
  split
  · rw [Int.natCast_mul, Int.neg_mul]
  · rw [Int.natCast_mul]

/-! ### A significand that is cut short -/

/-- The bits that are dropped one by one leave behind how they compare with a half. -/
theorem shiftRight_eq (m k : Nat) :
    ExtendedMantissa.ofMantissaAndAccuracy m .exact >>> k =
      ⟨m / 2 ^ k, decide (2 ^ k ≤ 2 * (m % 2 ^ k)),
        decide (2 * (m % 2 ^ k) ≠ 0 ∧ 2 * (m % 2 ^ k) ≠ 2 ^ k)⟩ := by
  induction k with
  | zero =>
    simp [HShiftRight.hShiftRight, Nat.repeat, ExtendedMantissa.ofMantissaAndAccuracy, Nat.mod_one]
  | succ k ih =>
    have hstep : ExtendedMantissa.ofMantissaAndAccuracy m .exact >>> (k + 1) =
        (ExtendedMantissa.ofMantissaAndAccuracy m .exact >>> k).shiftRightOne := rfl
    have hrest : m % 2 ^ (k + 1) = m % 2 ^ k + 2 ^ k * (m / 2 ^ k % 2) := Nat.mod_pow_succ
    have hlt := Nat.mod_lt m (Nat.two_pow_pos k)
    rw [hstep, ih, hrest, pow_succ, ← Nat.div_div_eq_div_mul]
    generalize m % 2 ^ k = rest at hlt
    generalize 2 ^ k = d at hlt
    unfold ExtendedMantissa.shiftRightOne
    rcases Nat.mod_two_eq_zero_or_one (m / d) with hbit | hbit
    · simp only [hbit, Nat.mul_zero, Nat.add_zero, ExtendedMantissa.mk.injEq, true_and]
      constructor
      · simp
        omega
      · rw [← Bool.decide_or, decide_eq_decide]
        omega
    · simp only [hbit, Nat.mul_one, ExtendedMantissa.mk.injEq, true_and]
      constructor
      · simp
        omega
      · rw [← Bool.decide_or, decide_eq_decide]
        omega

theorem roundedMantissa_shiftRight (m k : Nat) :
    (ExtendedMantissa.ofMantissaAndAccuracy m .exact >>> k).roundedMantissa =
      halfEven m (2 ^ k) := by
  rw [shiftRight_eq, halfEven]
  generalize m % 2 ^ k = rest
  have hd := Nat.two_pow_pos k
  generalize 2 ^ k = d at hd ⊢
  rcases Nat.lt_trichotomy (2 * rest) d with h | h | h
  · rw [Nat.compare_eq_lt.mpr h, decide_eq_false (p := d ≤ 2 * rest) (by omega)]
    cases decide (2 * rest ≠ 0 ∧ 2 * rest ≠ d) <;> rfl
  · rw [Nat.compare_eq_eq.mpr h, decide_eq_true (p := d ≤ 2 * rest) (by omega),
      decide_eq_false (by omega)]
    simp only [ExtendedMantissa.roundedMantissa, ExtendedMantissa.accuracy,
      Accuracy.roundToNearestEven]
    split <;> omega
  · rw [Nat.compare_eq_gt.mpr h, decide_eq_true (p := d ≤ 2 * rest) (by omega),
      decide_eq_true (by omega)]
    rfl

/-! ### Rounding to the format -/

/-- The exponent that a value is rounded to depends on its number of units only. -/
theorem targetExponent_eq {m : Nat} (hm : m ≠ 0) (s : Nat) :
    Format.binary64.targetExponent (totalExponent m ((s : Int) - 1074)) =
      (shiftOf (m * 2 ^ s) : Int) - 1074 := by
  have hlog := log2_mul_two_pow hm s
  simp only [Format.targetExponent, totalExponent, Format.mantissaBits, Format.minExponent,
    shiftOf, hlog]
  omega

theorem shiftToTargetExponent_eq {m s k : Nat} (hm : m ≠ 0) (h : shiftOf (m * 2 ^ s) = s + k) :
    shiftToTargetExponent Format.binary64 m ((s : Int) - 1074) .exact =
      (ExtendedMantissa.ofMantissaAndAccuracy m .exact >>> k, ((s + k : Nat) : Int) - 1074) := by
  have hamount : ((s + k : Nat) - 1074 - ((s : Int) - 1074)).toNat = k := by omega
  simp only [shiftToTargetExponent, shiftToExponent, targetExponent_eq hm, h, hamount,
    Prod.mk.injEq, true_and]
  omega

theorem Canonical.shiftOf_eq {m s : Nat} (hm : m ≠ 0) (h : Canonical m s) :
    shiftOf (m * 2 ^ s) = s := by
  have hlow : 2 ^ 52 ≤ m → 52 ≤ m.log2 := (Nat.le_log2 hm).mpr
  have hhigh := (Nat.log2_lt hm).mpr h.lt
  have hfull := h.full.imp_left hlow
  rw [shiftOf, log2_mul_two_pow hm]
  omega

/-- A significand that rounding has made one digit too long starts over at the next exponent. -/
theorem exists_carry (m s : Nat) (hm : m ≠ 0) (hle : m ≤ 2 ^ 53) (hfull : 2 ^ 52 ≤ m ∨ s = 0) :
    ∃ n t : Nat, shiftToTargetExponent Format.binary64 m ((s : Int) - 1074) .exact =
        (⟨n, false, false⟩, (t : Int) - 1074) ∧
      n ≠ 0 ∧ Canonical n t ∧ t * 2 ^ 52 + n = s * 2 ^ 52 + m := by
  rcases Nat.lt_or_eq_of_le hle with hlt | rfl
  · have hcanonical : Canonical m s := ⟨hlt, hfull⟩
    exact ⟨m, s, shiftToTargetExponent_eq (k := 0) hm (hcanonical.shiftOf_eq hm), hm, hcanonical,
      rfl⟩
  · have hshift : shiftOf (2 ^ 53 * 2 ^ s) = s + 1 := by
      rw [shiftOf, ← pow_add, Nat.log2_two_pow]
      omega
    exact ⟨2 ^ 52, s + 1, shiftToTargetExponent_eq (by decide) hshift, by decide,
      ⟨by decide, .inl (Nat.le_refl _)⟩, by omega⟩

/-- Rounding finds the significand that is nearest, at the exponent of the value. -/
theorem exists_roundWithAccuracy (sign : UnpackedFloat.Sign) {m s k : Nat} (hm : m ≠ 0)
    (h : shiftOf (m * 2 ^ s) = s + k) :
    ∃ (n t : Nat) (hn : 0 < n),
      roundWithAccuracy Format.binary64 sign m ((s : Int) - 1074) .exact =
        .finite sign n ((t : Int) - 1074) hn ∧ Canonical n t ∧
      t * 2 ^ 52 + n = (s + k) * 2 ^ 52 + halfEven m (2 ^ k) := by
  have hcanonical : Canonical (m / 2 ^ k) (s + k) := by
    have hdiv := canonical_div (m * 2 ^ s)
    rwa [h, Nat.add_comm, pow_add, Nat.mul_div_mul_right _ _ (Nat.two_pow_pos s),
      Nat.add_comm] at hdiv
  obtain ⟨hlow, hhigh⟩ := halfEven_bounds m (2 ^ k)
  have hne : halfEven m (2 ^ k) ≠ 0 := by
    rcases hcanonical.full with hfull | hzero
    · omega
    · obtain rfl : k = 0 := by omega
      rwa [pow_zero, halfEven_one]
  obtain ⟨n, t, hcarry, hn, hresult, hplace⟩ := exists_carry (halfEven m (2 ^ k)) (s + k) hne
    (hhigh.trans hcanonical.lt) (hcanonical.full.imp_left fun hfull => hfull.trans hlow)
  refine ⟨n, t, Nat.pos_of_ne_zero hn, ?_, hresult, hplace⟩
  simp only [roundWithAccuracy, shiftToTargetExponent_eq hm h, roundedMantissa_shiftRight, hcarry,
    dif_neg hn]

/-- The number of units is rounded to the nearest place, however it is given. -/
theorem exists_round (sign : UnpackedFloat.Sign) {m : Nat} (hm : m ≠ 0) (s : Nat) :
    ∃ (n t : Nat) (hn : 0 < n),
      UnpackedFloat.round Format.binary64 sign m ((s : Int) - 1074) =
        .finite sign n ((t : Int) - 1074) hn ∧ Canonical n t ∧
      min (t * 2 ^ 52 + n) top = nearest (2 * (m * 2 ^ s)) 1 := by
  generalize ht : shiftOf (m * 2 ^ s) = t
  -- The exponent is lowered to the target if it is beyond it.
  obtain ⟨r, k, rfl, hk⟩ : ∃ r k, t = r + k ∧ r = min s t := ⟨min s t, t - min s t, by omega, rfl⟩
  have hvalue : m <<< (s - r) * 2 ^ r = m * 2 ^ s := by
    rw [Nat.shiftLeft_eq, Nat.mul_assoc, ← pow_add, Nat.sub_add_cancel (by omega)]
  have hround : UnpackedFloat.round Format.binary64 sign m ((s : Int) - 1074) =
      roundWithAccuracy Format.binary64 sign (m <<< (s - r)) ((r : Int) - 1074) .exact := by
    have hamount : ((s : Int) - 1074 - (((r + k : Nat) : Int) - 1074)).toNat = s - r := by omega
    have hexponent : (s : Int) - 1074 - ((s - r : Nat) : Int) = (r : Int) - 1074 := by omega
    simp only [UnpackedFloat.round, decreaseExponent, targetExponent_eq hm, ht, hamount, hexponent]
  have hne : m <<< (s - r) ≠ 0 := by
    intro hzero
    rw [hzero, Nat.zero_mul] at hvalue
    exact Nat.mul_ne_zero hm (Nat.two_pow_pos s).ne' hvalue.symm
  obtain ⟨n, t, hn, hresult, hcanonical, hplace⟩ :=
    exists_roundWithAccuracy sign hne ((congrArg shiftOf hvalue).trans ht)
  refine ⟨n, t, hn, hround.trans hresult, hcanonical, ?_⟩
  rw [hplace, nearest_whole, ht, ← hvalue, pow_add, Nat.mul_comm (2 ^ r),
    halfEven_mul (Nat.two_pow_pos r)]

/-! ### Numbers put together and taken apart -/

/-- A number of bits is put together from a sign and the fields for exponent and significand. -/
theorem toNat_packComponents (sign : UnpackedFloat.Sign) (exponent : BitVec 11)
    (significand : BitVec 52) :
    (packComponents Format.binary64 sign exponent significand).toNat =
      sign.toBitVec.toNat * 2 ^ 63 + (exponent.toNat * 2 ^ 52 + significand.toNat) := by
  change (sign.toBitVec ++ exponent ++ significand).toNat = _
  rw [BitVec.toNat_append, BitVec.toNat_append, ← Nat.shiftLeft_add_eq_or_of_lt exponent.isLt,
    ← Nat.shiftLeft_add_eq_or_of_lt significand.isLt, Nat.shiftLeft_eq, Nat.shiftLeft_eq]
  ring

/-- The number that is stored for an unpacked one. -/
def stored (x : UnpackedFloat) : Float := .ofModel (Float.Model.pack x)

theorem stored_unpack (x : Float) : stored x.toModel.unpack = x :=
  Float.ofBits_toBits x

/-- Sign and place of a number whose fields are known. -/
theorem place_of_toBits {x : Float} {sign : UnpackedFloat.Sign} {p : Nat} (hp : p < 2 ^ 63)
    (h : x.toBits.toNat = sign.toBitVec.toNat * 2 ^ 63 + p) :
    place x = p ∧ isNegative x = (sign == .negative) := by
  rw [place, isNegative, h, Nat.pow_eq]
  cases sign with
  | negative =>
    have hbit : UnpackedFloat.Sign.negative.toBitVec.toNat = 1 := rfl
    rw [hbit, beq_self_eq_true, decide_eq_true_eq]
    omega
  | positive =>
    have hbit : UnpackedFloat.Sign.positive.toBitVec.toNat = 0 := rfl
    have hsign : (UnpackedFloat.Sign.positive == .negative) = false := rfl
    rw [hbit, hsign, decide_eq_false_iff_not]
    omega

theorem stored_zero (sign : UnpackedFloat.Sign) :
    place (stored (.zero sign)) = 0 ∧ isNegative (stored (.zero sign)) = (sign == .negative) :=
  place_of_toBits (by decide) (toNat_packComponents sign 0 0)

/-- A significand that the format can hold is stored at its place, or as infinity. -/
theorem stored_finite (sign : UnpackedFloat.Sign) {m t : Nat} (hm : 0 < m) (h : Canonical m t) :
    place (stored (.finite sign m ((t : Int) - 1074) hm)) = min (t * 2 ^ 52 + m) top ∧
      isNegative (stored (.finite sign m ((t : Int) - 1074) hm)) = (sign == .negative) := by
  obtain ⟨hlt, hfull⟩ := h
  have hbiased : ((t : Int) - 1074 + 1023 + 52).toNat = t + 1 := by omega
  have hpack : pack Format.binary64 (.finite sign m ((t : Int) - 1074) hm) =
      if 2 ^ 11 ≤ t + 1 + 1 then packedInfinity Format.binary64 sign
      else if m.log2 + 1 = 53 then
        packComponents Format.binary64 sign (BitVec.ofNat 11 (t + 1)) (BitVec.ofNat 52 m)
      else packComponents Format.binary64 sign 0#11 (BitVec.ofNat 52 m) := by
    rw [← hbiased]
    rfl
  have hbits : ∀ {b : BitVec 64}, pack Format.binary64 (.finite sign m ((t : Int) - 1074) hm) = b →
      (stored (.finite sign m ((t : Int) - 1074) hm)).toBits.toNat = b.toNat :=
    fun hb => congrArg BitVec.toNat hb
  split at hpack
  · rename_i hlarge
    rw [Nat.min_eq_right (by rw [top_eq]; omega)]
    exact place_of_toBits (by decide) ((hbits hpack).trans (toNat_packComponents sign (-1) 0))
  rename_i hsmall
  rw [Nat.min_eq_left (by rw [top_eq]; omega)]
  split at hpack
  · rename_i hlog
    refine place_of_toBits (by omega) (((hbits hpack).trans (toNat_packComponents _ _ _)).trans ?_)
    have hlow := (Nat.le_log2 hm.ne').mp (show 52 ≤ m.log2 by omega)
    rw [BitVec.toNat_ofNat, BitVec.toNat_ofNat]
    omega
  · rename_i hlog
    refine place_of_toBits (by omega) (((hbits hpack).trans (toNat_packComponents _ _ _)).trans ?_)
    have hlow : ¬ 2 ^ 52 ≤ m := by
      intro hlow
      have hle := (Nat.le_log2 hm.ne').mpr hlow
      have hlt := (Nat.log2_lt hm.ne').mpr hlt
      omega
    rw [BitVec.toNat_ofNat, BitVec.toNat_ofNat]
    omega

/-- Up to infinity every place is that of a number of either sign. -/
theorem exists_place {p : Nat} (h : p ≤ top) (negative : Bool) :
    ∃ x, place x = p ∧ isNegative x = negative := by
  obtain ⟨sign, hsign⟩ : ∃ sign : UnpackedFloat.Sign, (sign == .negative) = negative := by
    cases negative with
    | false => exact ⟨.positive, rfl⟩
    | true => exact ⟨.negative, rfl⟩
  rw [← hsign]
  rcases Nat.eq_zero_or_pos p with rfl | hp
  · exact ⟨_, stored_zero sign⟩
  obtain ⟨m, t, hm, rfl, hcanonical⟩ : ∃ m t, 0 < m ∧ p = t * 2 ^ 52 + m ∧ Canonical m t :=
    ⟨p - (p / 2 ^ 52 - 1) * 2 ^ 52, p / 2 ^ 52 - 1, by omega, by omega, by omega, by omega⟩
  obtain ⟨hplace, hnegative⟩ := stored_finite sign hm hcanonical
  exact ⟨_, hplace.trans (Nat.min_eq_left h), hnegative⟩

theorem place_ofPlace {p : Nat} (h : p ≤ top) (negative : Bool) :
    place (ofPlace negative p) = p := by
  obtain ⟨x, rfl, rfl⟩ := exists_place h negative
  rw [ofPlace_place]

theorem isNegative_ofPlace {p : Nat} (h : p ≤ top) (negative : Bool) :
    isNegative (ofPlace negative p) = negative := by
  obtain ⟨x, rfl, rfl⟩ := exists_place h negative
  rw [ofPlace_place]

theorem exists_unpack_zero {x : Float} (h : place x = 0) :
    ∃ sign, x.toModel.unpack = .zero sign := by
  rcases place_eq_zero_iff.mp h with rfl | rfl
  · exact ⟨.positive, rfl⟩
  · exact ⟨.negative, rfl⟩

/-- A number other than zero that is finite is unpacked into a significand at its exponent. -/
theorem exists_unpack {x : Float} (htop : place x < top) (hzero : place x ≠ 0) :
    ∃ (sign : UnpackedFloat.Sign) (m t : Nat) (hm : 0 < m),
      x.toModel.unpack = .finite sign m ((t : Int) - 1074) hm ∧ Canonical m t := by
  have hexponent := toNat_unpackExponent x
  have hsignificand := toNat_unpackMantissa x
  have hbias : ((Format.binary64.exponentBias : Nat) : Int) = 1023 := rfl
  change ∃ (sign : UnpackedFloat.Sign) (m t : Nat) (hm : 0 < m),
    UnpackedFloat.unpack Format.binary64 x.toBits.toBitVec =
      .finite sign m ((t : Int) - 1074) hm ∧ Canonical m t
  simp only [UnpackedFloat.unpack, hexponent, hbias,
    if_neg ((unpackExponent_eq_iff x).not.mpr (Nat.not_le.mpr htop))]
  split
  · rename_i hsubnormal
    have hleast : place x / 2 ^ 52 = 0 := by
      rw [← hexponent, hsubnormal]
      rfl
    have hne : @unpackMantissa Format.binary64 x.toBits.toBitVec ≠ 0#52 := by
      rw [ne_eq, unpackMantissa_eq_iff]
      omega
    have hscale : ((place x / 2 ^ 52 : Nat) : Int) - (1023 + (52 : Nat)) + 1 =
        ((0 : Nat) : Int) - 1074 := by omega
    simp only [dif_neg hne, hscale]
    refine ⟨_, _, 0, by omega, rfl, ?_, .inr rfl⟩
    omega
  · rename_i hnormal
    have hleast : place x / 2 ^ 52 ≠ 0 := by
      rw [← hexponent]
      exact fun h => hnormal (BitVec.toNat_inj.mp h)
    have hscale : ((place x / 2 ^ 52 : Nat) : Int) - (1023 + (52 : Nat)) =
        ((place x / 2 ^ 52 - 1 : Nat) : Int) - 1074 := by omega
    have hfull : (1#1 ++ @unpackMantissa Format.binary64 x.toBits.toBitVec).toNat =
        1 * 2 ^ 52 + place x % 2 ^ 52 := by
      have hlt := Nat.mod_lt (place x) (Nat.two_pow_pos 52)
      rw [BitVec.toNat_append, hsignificand, ← Nat.shiftLeft_add_eq_or_of_lt hlt, Nat.shiftLeft_eq]
      rfl
    simp only [hscale]
    refine ⟨_, _, place x / 2 ^ 52 - 1, by omega, rfl, ?_, .inl ?_⟩
    · omega
    · omega

/-! ### Sums -/

/-- The value of a finite number, in units. -/
def value (x : Float) : Int := if isNegative x then -(size x : Int) else size x

/-- The number that a value other than zero, in units, is rounded to. -/
structure IsNearest (x : Float) (n : Int) : Prop where
  place_eq : place x = nearest (2 * n.natAbs) 1
  isNegative_eq : isNegative x = decide (n < 0)

theorem natAbs_value (x : Float) : (value x).natAbs = size x := by
  unfold value
  split
  · rw [Int.natAbs_neg, Int.natAbs_natCast]
  · exact Int.natAbs_natCast _

theorem value_eq_zero_iff {x : Float} : value x = 0 ↔ place x = 0 := by
  rw [← Int.natAbs_eq_zero, natAbs_value, ← units_zero]
  exact units_strictMono.injective.eq_iff

/-- A number is nearest to its own value. -/
theorem isNearest_value {x : Float} (htop : place x < top) (hzero : value x ≠ 0) :
    IsNearest x (value x) := by
  constructor
  · rw [natAbs_value, ← Nat.mul_one (2 * size x)]
    exact (nearest_units Nat.one_pos htop.le).symm
  · have hsize := natAbs_value x
    unfold value at hzero hsize ⊢
    cases hsign : isNegative x with
    | false =>
      rw [hsign] at hzero
      simp
    | true =>
      rw [hsign] at hzero
      simp at hzero ⊢
      omega

theorem place_lt_top {x : Float} (h : (value x).natAbs < units top) : place x < top := by
  rwa [natAbs_value, size, units_strictMono.lt_iff_lt] at h

theorem IsNearest.value_eq {x : Float} {n : Int} (h : IsNearest x n)
    (hn : n.natAbs < units top) : value x = roundedInt n := by
  rw [value, size, h.place_eq, units_nearest hn, h.isNegative_eq, roundedInt]
  simp only [decide_eq_true_eq]

theorem value_eq_apply {x : Float} {sign : UnpackedFloat.Sign} {m t : Nat} {hm : 0 < m}
    (htop : place x < top) (h : x.toModel.unpack = .finite sign m ((t : Int) - 1074) hm)
    (hcanonical : Canonical m t) :
    value x = sign.apply ((m * 2 ^ t : Nat) : Int) := by
  obtain ⟨hplace, hsign⟩ := stored_finite sign hm hcanonical
  rw [← h, stored_unpack] at hplace hsign
  rw [Nat.min_eq_left (by omega)] at hplace
  rw [value, size, hplace, hcanonical.units_eq, hsign]
  cases sign <;> rfl

theorem apply_mul (sign : UnpackedFloat.Sign) (m k : Nat) :
    sign.apply m * (k : Int) = sign.apply ((m * k : Nat) : Int) := by
  cases sign with
  | negative =>
    change -(m : Int) * k = -((m * k : Nat) : Int)
    rw [Int.neg_mul, Int.natCast_mul]
  | positive => exact (Int.natCast_mul m k).symm

theorem isNearest_stored_round (sign : UnpackedFloat.Sign) {m : Nat} (hm : m ≠ 0) (s : Nat) :
    IsNearest (stored (UnpackedFloat.round Format.binary64 sign m ((s : Int) - 1074)))
      (sign.apply ((m * 2 ^ s : Nat) : Int)) := by
  obtain ⟨k, t, hk, hround, hcanonical, hplace⟩ := exists_round sign hm s
  obtain ⟨hstored, hsign⟩ := stored_finite sign hk hcanonical
  have hpos : 0 < m * 2 ^ s := Nat.mul_pos (Nat.pos_of_ne_zero hm) (Nat.two_pow_pos s)
  rw [hround]
  generalize m * 2 ^ s = n at hplace hpos
  constructor
  · rw [hstored, hplace]
    cases sign with
    | negative => exact congrArg (fun i => nearest (2 * i) 1) (Int.natAbs_neg n).symm
    | positive => rfl
  · rw [hsign]
    cases sign with
    | negative => exact (decide_eq_true (show -(n : Int) < 0 by omega)).symm
    | positive => exact (decide_eq_false (show ¬ (n : Int) < 0 by omega)).symm

/-- A whole number of steps is rounded to the place that is nearest to its value. -/
theorem isNearest_normalize {n : Int} (hn : n ≠ 0) (s : Nat) :
    IsNearest (stored (UnpackedFloat.normalize Format.binary64 n ((s : Int) - 1074) .positive))
      (n * (2 ^ s : Nat)) := by
  rcases Int.lt_or_lt_of_ne hn with hneg | hpos
  · have hround := isNearest_stored_round .negative (show (-n).toNat ≠ 0 by omega) s
    rw [← apply_mul, Int.toNat_of_nonneg (by omega)] at hround
    rw [UnpackedFloat.normalize, compare_lt_iff_lt.mpr hneg]
    change IsNearest _ (- -n * _) at hround
    rwa [Int.neg_neg] at hround
  · have hround := isNearest_stored_round .positive (show n.toNat ≠ 0 by omega) s
    rw [← apply_mul, Int.toNat_of_nonneg (by omega)] at hround
    rw [UnpackedFloat.normalize, compare_gt_iff_gt.mpr hpos]
    exact hround

theorem add_eq (x y : Float) :
    x + y = stored (UnpackedFloat.add Format.binary64 x.toModel.unpack y.toModel.unpack) := rfl

/-- Zero of either sign does not change the other number. -/
theorem add_of_place_eq_zero {x y : Float} (hx : place x = 0) (hy : place y < top)
    (hzero : place y ≠ 0) : x + y = y ∧ y + x = y := by
  obtain ⟨sign, hx⟩ := exists_unpack_zero hx
  obtain ⟨s, m, t, hm, hunpack, -⟩ := exists_unpack hy hzero
  constructor
  · rw [add_eq, hx, hunpack]
    exact (congrArg stored hunpack.symm).trans (stored_unpack y)
  · rw [add_eq, hx, hunpack]
    exact (congrArg stored hunpack.symm).trans (stored_unpack y)

/-- **A sum is the exact sum, rounded to the nearest place.** -/
theorem isNearest_add {x y : Float} (hx : place x < top) (hy : place y < top)
    (h : value x + value y ≠ 0) : IsNearest (x + y) (value x + value y) := by
  by_cases hx0 : place x = 0
  · rw [value_eq_zero_iff.mpr hx0, Int.zero_add] at h ⊢
    rw [(add_of_place_eq_zero hx0 hy (mt value_eq_zero_iff.mpr h)).1]
    exact isNearest_value hy h
  by_cases hy0 : place y = 0
  · rw [value_eq_zero_iff.mpr hy0, Int.add_zero] at h ⊢
    rw [(add_of_place_eq_zero hy0 hx hx0).2]
    exact isNearest_value hx h
  obtain ⟨s₁, m₁, t₁, hm₁, hunpack₁, hcanonical₁⟩ := exists_unpack hx hx0
  obtain ⟨s₂, m₂, t₂, hm₂, hunpack₂, hcanonical₂⟩ := exists_unpack hy hy0
  rw [value_eq_apply hx hunpack₁ hcanonical₁, value_eq_apply hy hunpack₂ hcanonical₂] at h ⊢
  -- Both significands are brought to the smaller of the exponents.
  obtain ⟨t, ht⟩ : ∃ t, t = min t₁ t₂ := ⟨_, rfl⟩
  have hexponent : min ((t₁ : Int) - 1074) ((t₂ : Int) - 1074) = (t : Int) - 1074 := by omega
  have haligned : ∀ (s : UnpackedFloat.Sign) (m k : Nat), t ≤ k →
      s.apply ((m <<< ((k : Int) - 1074 - ((t : Int) - 1074)).toNat : Nat) : Int) *
        ((2 ^ t : Nat) : Int) = s.apply ((m * 2 ^ k : Nat) : Int) := by
    intro s m k hk
    rw [apply_mul, show ((k : Int) - 1074 - ((t : Int) - 1074)).toNat = k - t by omega,
      Nat.shiftLeft_eq, Nat.mul_assoc, ← pow_add, Nat.sub_add_cancel hk]
  rw [← haligned s₁ m₁ t₁ (by omega), ← haligned s₂ m₂ t₂ (by omega), ← Int.add_mul] at h ⊢
  rw [add_eq, hunpack₁, hunpack₂]
  simp only [UnpackedFloat.add, decreaseExponent, hexponent]
  exact isNearest_normalize (left_ne_zero_of_mul h) t

end Eel.Number
