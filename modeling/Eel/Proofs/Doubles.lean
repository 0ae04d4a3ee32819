/-
A double-precision number is its sign and its place.

The model reads both off the bits of a number.  Here they are tied to what the number is for
arithmetic: `ofPlace_place` says that nothing is lost, and the others find NaN, the infinities
and the zeros among the places.  There is only one NaN, so numbers that are not NaN have places
up to `top`, where infinity stands.  Two numbers are equal as numbers if they are the same, or
if both are zeros, whatever their signs.
-/
import Mathlib
import Eel.Number.Bits

namespace Eel.Number

open Float.Model.UnpackedFloat (unpackExponent unpackMantissa)

/-! ### Bits -/

theorem ofPlace_place (x : Float) : ofPlace (isNegative x) (place x) = x := by
  have hlt := x.toBits.toNat_lt
  have hbits : (if isNegative x = true then Nat.pow 2 63 + place x else place x) =
      x.toBits.toNat := by
    unfold isNegative place
    simp only [Nat.pow_eq, decide_eq_true_eq]
    split <;> omega
  rw [ofPlace, hbits, UInt64.ofNat_toNat, Float.ofBits_toBits]

theorem toNat_unpackExponent (x : Float) :
    (@unpackExponent .binary64 x.toBits.toBitVec).toNat = place x / 2 ^ 52 := by
  have hlt := x.toBits.toNat_lt
  rw [Float.Model.UnpackedFloat.unpackExponent_def, BitVec.extractLsb'_toNat,
    UInt64.toNat_toBitVec, Nat.shiftRight_eq_div_pow, place, Nat.pow_eq]
  change _ / 2 ^ 52 % 2 ^ 11 = _
  omega

theorem toNat_unpackMantissa (x : Float) :
    (@unpackMantissa .binary64 x.toBits.toBitVec).toNat = place x % 2 ^ 52 := by
  rw [Float.Model.UnpackedFloat.unpackMantissa_def, BitVec.extractLsb'_toNat,
    UInt64.toNat_toBitVec, Nat.shiftRight_eq_div_pow, place, Nat.pow_eq]
  change _ / 2 ^ 0 % 2 ^ 52 = _
  omega

theorem place_lt (x : Float) : place x < 2 ^ 63 := Nat.mod_lt _ (Nat.two_pow_pos 63)

theorem top_eq : top = 2047 * 2 ^ 52 := rfl

/-- The exponent is all ones from `top` on. -/
theorem unpackExponent_eq_iff (x : Float) :
    @unpackExponent .binary64 x.toBits.toBitVec = -1#11 ↔ top ≤ place x := by
  have hlt := place_lt x
  rw [← BitVec.toNat_inj, toNat_unpackExponent, top_eq]
  change _ = 2047 ↔ _
  omega

theorem unpackMantissa_eq_iff (x : Float) :
    @unpackMantissa .binary64 x.toBits.toBitVec = 0#52 ↔ place x % 2 ^ 52 = 0 := by
  rw [← BitVec.toNat_inj, toNat_unpackMantissa]
  rfl

/-! ### NaN, infinities and zeros -/

theorem isNaN_iff {x : Float} : x.isNaN = true ↔ x = nan := by
  rw [Float.isNaN_eq_decide_eq_nan, decide_eq_true_eq]
  rfl

theorem ne_nan_of_isNaN {x : Float} (h : x.isNaN = false) : x ≠ nan := by
  intro hnan
  rw [isNaN_iff.mpr hnan] at h
  cases h

/-- Beyond infinity there is only NaN. -/
theorem place_le_top {x : Float} (h : x.isNaN = false) : place x ≤ top := by
  by_contra hbeyond
  have hlt := place_lt x
  have hexponent := (unpackExponent_eq_iff x).mpr (by omega)
  have hmantissa := (unpackMantissa_eq_iff x).not.mpr (by rw [top_eq] at hbeyond; omega)
  have hbits : x.toBits = nan.toBits :=
    UInt64.toBitVec_inj.mp (x.toModel.valid.eq_packedNaN hexponent hmantissa)
  exact ne_nan_of_isNaN h (Float.toBits_inj.mp hbits)

theorem isInf_iff {x : Float} : x.isInf = true ↔ place x = top := by
  have hinf : x.isInf = true ↔ top ≤ place x ∧ place x % 2 ^ 52 = 0 := by
    rw [← unpackExponent_eq_iff, ← unpackMantissa_eq_iff]
    change (Float.Model.UnpackedFloat.unpack .binary64 x.toBits.toBitVec).isInf = true ↔ _
    unfold Float.Model.UnpackedFloat.unpack
    simp only
    split
    · split <;> simp_all [Float.Model.UnpackedFloat.isInf]
    · split
      · split <;> simp_all [Float.Model.UnpackedFloat.isInf]
      · simp_all [Float.Model.UnpackedFloat.isInf]
  have hlt := place_lt x
  rw [hinf, top_eq]
  omega

theorem place_zero : place 0 = 0 := by decide

/-- Zero has two signs. -/
theorem place_eq_zero_iff {x : Float} : place x = 0 ↔ x = 0 ∨ x = -0 := by
  constructor
  · intro hplace
    have hx := ofPlace_place x
    rw [hplace] at hx
    cases hsign : isNegative x with
    | false =>
      rw [hsign] at hx
      exact .inl hx.symm
    | true =>
      rw [hsign] at hx
      exact .inr hx.symm
  · rintro (rfl | rfl)
    · exact place_zero
    · decide

/-! ### Equality as numbers -/

theorem beq_iff {x y : Float} :
    (x == y) = true ↔ x ≠ nan ∧ y ≠ nan ∧ (x = y ∨ place x = 0 ∧ place y = 0) := by
  rw [Float.beq_iff_ne_nan_and_eq]
  refine and_congr Iff.rfl (and_congr Iff.rfl ?_)
  simp only [place_eq_zero_iff]
  constructor
  · rintro (h | ⟨hx, hy⟩ | ⟨hx, hy⟩)
    · exact .inl h
    · exact .inr ⟨.inl hx, .inr hy⟩
    · exact .inr ⟨.inr hx, .inl hy⟩
  · rintro (h | ⟨rfl | rfl, rfl | rfl⟩)
    · exact .inl h
    · exact .inl rfl
    · exact .inr (.inl ⟨rfl, rfl⟩)
    · exact .inr (.inr ⟨rfl, rfl⟩)
    · exact .inl rfl

theorem place_nan_ne_zero : place nan ≠ 0 := by decide

theorem beq_zero_iff {x : Float} : (x == 0) = true ↔ place x = 0 := by
  rw [beq_iff]
  constructor
  · rintro ⟨-, -, rfl | ⟨hx, -⟩⟩
    · exact place_zero
    · exact hx
  · intro hx
    have hne : ∀ y : Float, place y = 0 → y ≠ nan := by
      rintro y hy rfl
      exact place_nan_ne_zero hy
    exact ⟨hne x hx, hne 0 place_zero, .inr ⟨hx, place_zero⟩⟩

end Eel.Number
