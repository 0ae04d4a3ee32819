/-
Whole numbers, and what `round`, `floor` and `ceil` make of them.

The whole numbers up to `2 ^ 53` on either side are numbers of the format, and they are written
with their digits, so what a command makes of the text of one is decided by what its function
makes of the number.  Cutting off to a whole number is division of the value by one, in units,
and changes nothing.

`round` first adds a half.  As long as twice the number and one more fits into a significand, the
sum is exact and the half is cut off again.  Beyond `2 ^ 52` it does not fit any more: the sum is a
tie between two whole numbers and goes to the even one, which for an odd number is the next one
up.
-/
import Eel.Builtin.Catalogue
import Eel.Proofs.NumberText
import Eel.Proofs.Sums

namespace Eel

namespace Number

/-! ### Cutting off to whole numbers -/

theorem isNaN_eq_false {x : Float} (h : place x < top) : x.isNaN = false := by
  rw [Bool.eq_false_iff, ne_eq, isNaN_iff]
  rintro rfl
  exact absurd h (by decide)

theorem isInf_eq_false {x : Float} (h : place x < top) : x.isInf = false := by
  rw [Bool.eq_false_iff, ne_eq, isInf_iff]
  exact h.ne

theorem whole_eq (f : Float → Int) {x : Float} (h : place x < top) :
    whole f x = .ok (ofInt (f x)) := by
  rw [whole, isNaN_eq_false h, isInf_eq_false h]
  rfl

theorem unitsPerOne_ne_zero : (unitsPerOne : Int) ≠ 0 := by
  exact_mod_cast unitsPerOne_pos.ne'

/-- A quotient below zero is cut off at the next whole number away from zero. -/
theorem neg_ediv_eq (n d : Nat) (hd : 0 < d) :
    -(n : Int) / d = -(((n + (d - 1)) / d : Nat) : Int) := by
  have hpos : (0 : Int) < d := by exact_mod_cast hd
  have hdiv := Nat.div_add_mod' (n + (d - 1)) d
  have hlt := Nat.mod_lt (n + (d - 1)) hd
  generalize (n + (d - 1)) / d = q at hdiv ⊢
  generalize (n + (d - 1)) % d = r at hdiv hlt
  rw [Int.ediv_eq_iff_of_pos hpos, Int.neg_mul, ← Int.natCast_mul]
  omega

/-- The whole number at or below is what is left of the value in units. -/
theorem floorInt_eq (x : Float) : floorInt x = value x / unitsPerOne := by
  unfold floorInt value
  split
  · exact (neg_ediv_eq _ _ unitsPerOne_pos).symm
  · exact (Int.natCast_ediv _ _).symm

theorem ceilInt_eq (x : Float) : ceilInt x = -(-value x / unitsPerOne) := by
  unfold ceilInt value
  split
  · rw [Int.neg_neg, Int.natCast_ediv]
  · rw [neg_ediv_eq _ _ unitsPerOne_pos, Int.neg_neg]

/-! ### Whole numbers -/

theorem isNearest_ofInt (n : Int) : IsNearest (ofInt n) (n * unitsPerOne) := by
  have hpos := unitsPerOne_pos
  have hsign : n * (unitsPerOne : Int) < 0 ↔ n < 0 := by
    rw [Int.mul_neg_iff]
    omega
  constructor
  · rw [ofInt, place_ofPlace (nearest_le_top _ _), Int.natAbs_mul, Int.natAbs_natCast,
      Nat.mul_left_comm]
  · rw [ofInt, isNegative_ofPlace (nearest_le_top _ _), decide_eq_decide, hsign]

section

variable {n : Int}

/-- Whole numbers up to `2 ^ 53` are numbers of the format. -/
theorem value_ofInt (hn : n.natAbs ≤ 2 ^ 53) : value (ofInt n) = n * unitsPerOne := by
  obtain ⟨a, ha, hunit, -⟩ := exists_exponent
  rw [(isNearest_ofInt n).value_eq, hunit, roundedInt_mul_two_pow, roundedInt_of_natAbs_le hn]
  rw [Int.natAbs_mul, Int.natAbs_natCast, hunit]
  exact mul_two_pow_lt_top (by omega) (by omega)

theorem size_ofInt (hn : n.natAbs ≤ 2 ^ 53) : size (ofInt n) = n.natAbs * unitsPerOne := by
  rw [← natAbs_value, value_ofInt hn, Int.natAbs_mul, Int.natAbs_natCast]

theorem place_ofInt_lt (hn : n.natAbs ≤ 2 ^ 53) : place (ofInt n) < top := by
  obtain ⟨a, ha, hunit, -⟩ := exists_exponent
  rw [← units_strictMono.lt_iff_lt, ← size, size_ofInt hn, hunit]
  exact mul_two_pow_lt_top (by omega) (by omega)

theorem isNegative_ofInt : isNegative (ofInt n) = decide (n < 0) :=
  isNegative_ofPlace (nearest_le_top _ _) _

theorem signed_natText (n : Int) :
    String.ofList (signed (decide (n < 0)) (natText n.natAbs)) = toString n := by
  cases n with
  | ofNat m => rfl
  | negSucc m =>
    have hsign : decide (Int.negSucc m < 0) = true := decide_eq_true (Int.negSucc_lt_zero m)
    have happend : String.ofList (['-'] ++ natText (m + 1)) = "-" ++ Nat.repr (m + 1) :=
      String.ofList_append
    rw [hsign]
    exact happend

/-- A whole number up to `2 ^ 53` is written with its digits. -/
theorem text_ofInt (hn : n.natAbs ≤ 2 ^ 53) : text (ofInt n) = toString n := by
  have htop := place_ofInt_lt hn
  have hdiv : size (ofInt n) / unitsPerOne = n.natAbs := by
    rw [size_ofInt hn, Nat.mul_div_cancel _ unitsPerOne_pos]
  have hwhole : (isWhole (ofInt n) && size (ofInt n) < Nat.pow 10 21 * unitsPerOne) = true := by
    rw [isWhole, size_ofInt hn, Nat.mul_mod_left, Bool.and_eq_true, decide_eq_true_eq]
    exact ⟨rfl, Nat.mul_lt_mul_of_pos_right (hn.trans_lt (by decide)) unitsPerOne_pos⟩
  have hsign : (isNegative (ofInt n) && n.natAbs != 0) = decide (n < 0) := by
    rw [isNegative_ofInt, Bool.eq_iff_iff]
    simp
    omega
  rw [text, isNaN_eq_false htop, isInf_eq_false htop, if_pos hwhole]
  simp only [hdiv, hsign]
  exact signed_natText n

theorem ofInt_zero : ofInt 0 = 0 := by
  have hnearest : nearest (Int.natAbs 0 * (2 * unitsPerOne)) 1 = 0 :=
    nearest_eq_zero (by rw [Int.natAbs_zero, Nat.zero_mul]; exact Nat.one_pos)
  rw [ofInt, hnearest]
  rfl

theorem readBack_ofInt (hn : n.natAbs ≤ 2 ^ 53) : readBack (ofInt n) = ofInt n := by
  by_cases hzero : place (ofInt n) = 0
  · have hvalue := value_eq_zero_iff.mpr hzero
    rw [value_ofInt hn, Int.mul_eq_zero, or_iff_left unitsPerOne_ne_zero] at hvalue
    rw [readBack_of_place_eq_zero hzero, hvalue, ofInt_zero]
  · exact readBack_of_place_ne_zero hzero

theorem parse?_toString (hn : n.natAbs ≤ 2 ^ 53) : parse? (toString n) = some (ofInt n) := by
  rw [← text_ofInt hn, parse?_text, readBack_ofInt hn]

theorem floor_ofInt (hn : n.natAbs ≤ 2 ^ 53) : floor (ofInt n) = .ok (ofInt n) := by
  rw [floor, whole_eq _ (place_ofInt_lt hn), floorInt_eq, value_ofInt hn,
    Int.mul_ediv_cancel _ unitsPerOne_ne_zero]

theorem ceil_ofInt (hn : n.natAbs ≤ 2 ^ 53) : ceil (ofInt n) = .ok (ofInt n) := by
  rw [ceil, whole_eq _ (place_ofInt_lt hn), ceilInt_eq, value_ofInt hn, ← Int.neg_mul,
    Int.mul_ediv_cancel _ unitsPerOne_ne_zero, Int.neg_neg]

/-! ### Half a unit further on -/

/-- Half a unit, and how often the format divides it. -/
theorem exists_half : ∃ a < 1100, unitsPerOne = 2 * 2 ^ a ∧ value 0.5 = (2 ^ a : Nat) := by
  obtain ⟨a, ha, hunit, -⟩ := exists_exponent
  obtain ⟨s, hs, hplace⟩ : ∃ s, s = 1021 ∧ place 0.5 = s * 2 ^ 52 + 2 ^ 52 :=
    ⟨1021, rfl, by decide⟩
  refine ⟨52 + s, by omega, ?_, ?_⟩
  · rw [hunit, ← pow_succ']
    exact congrArg (2 ^ ·) (by omega)
  · have hsign : isNegative 0.5 = false := by decide
    rw [value, hsign, size, hplace, units_normal s (by decide) (by decide), pow_add]
    rfl

/-- An odd number of halves that is too long for a significand is put to the even side. -/
theorem rounded_odd {k : Nat} (hlow : 2 ^ 52 ≤ k) (hhigh : k < 2 ^ 53) :
    rounded (2 * k + 1) = 2 * (if k % 2 = 0 then k else k + 1) := by
  have hlog : (2 * k + 1).log2 = 53 := (Nat.log2_eq_iff (by omega)).mpr ⟨by omega, by omega⟩
  have hshift : shiftOf (2 * k + 1) = 1 := by rw [shiftOf, hlog]
  have hrest : (2 * k + 1) % 2 ^ 1 = 1 := by omega
  have hwhole : (2 * k + 1) / 2 ^ 1 = k := by omega
  rw [rounded, hshift, halfEven, hrest, hwhole, Nat.mul_comm]
  rfl

/-- What is left of a whole number when half a unit is added and the sum is cut off again. -/
theorem roundedInt_half (hn : n.natAbs ≤ 2 ^ 53) :
    roundedInt (2 * n + 1) / 2 = if n % 2 = 1 ∧ 2 ^ 52 < n.natAbs then n + 1 else n := by
  by_cases hshort : (2 * n + 1).natAbs ≤ 2 ^ 53
  · -- The sum is exact.
    rw [roundedInt_of_natAbs_le hshort, if_neg (by omega)]
    omega
  by_cases hlong : (2 * n + 1).natAbs < 2 ^ 54
  · obtain ⟨k, hk⟩ : ∃ k, (2 * n + 1).natAbs = 2 * k + 1 := ⟨(2 * n + 1).natAbs / 2, by omega⟩
    rw [roundedInt, hk, rounded_odd (by omega) (by omega)]
    split <;> split <;> split <;> omega
  · -- Only the last of the numbers is left, and there a half is less than half a step.
    obtain rfl : n = 2 ^ 53 := by omega
    decide

theorem round_ofInt (hn : n.natAbs ≤ 2 ^ 53) :
    round (ofInt n) = .ok (ofInt (if n % 2 = 1 ∧ 2 ^ 52 < n.natAbs then n + 1 else n)) := by
  obtain ⟨a, ha, hunit, hhalf⟩ := exists_half
  have hpos : (0 : Int) < (2 ^ a : Nat) := by exact_mod_cast Nat.two_pow_pos a
  have hcut := roundedInt_half hn
  have hsum : value (ofInt n) + value 0.5 = (2 * n + 1) * (2 ^ a : Nat) := by
    rw [value_ofInt hn, hhalf, hunit, Int.natCast_mul]
    ring
  have hne : (2 * n + 1) * (2 ^ a : Nat) ≠ 0 := Int.mul_ne_zero (by omega) hpos.ne'
  have hnearest := isNearest_add (place_ofInt_lt hn) (show place 0.5 < top by decide)
    (hsum ▸ hne)
  have hvalue : value (ofInt n + 0.5) = roundedInt (2 * n + 1) * (2 ^ a : Nat) := by
    rw [hnearest.value_eq, hsum, roundedInt_mul_two_pow]
    rw [hsum, Int.natAbs_mul, Int.natAbs_natCast]
    exact mul_two_pow_lt_top (by omega) ha
  have htop : place (ofInt n + 0.5) < top := by
    apply place_lt_top
    rw [hvalue, Int.natAbs_mul, Int.natAbs_natCast]
    refine mul_two_pow_lt_top ?_ ha
    split at hcut <;> omega
  have hfloor : value (ofInt n + 0.5) / unitsPerOne = roundedInt (2 * n + 1) / 2 := by
    rw [hvalue, hunit, Int.natCast_mul]
    exact Int.mul_ediv_mul_of_pos_left _ _ hpos
  rw [round, floor, whole_eq _ htop, floorInt_eq, hfloor, hcut]

end

end Number

namespace Builtin

theorem handler_ofNumber (name : String) (shortage : Fault) (f : Float → Except Fault Float)
    (chance : Chance) {a : String} {x : Float} (h : numberOf a = .ok x) :
    (ofNumber name shortage f).handler chance [a] = (f x).map numberOutcome := by
  have hparams : ([a].take 1).mapM numberOf = .ok [x] := by
    rw [List.take_succ_cons, List.take_nil, List.mapM_cons, h]
    rfl
  change ([a].take 1).mapM numberOf >>= _ = _
  rw [hparams]
  rfl

theorem numberOf_toString {n : Int} (hn : n.natAbs ≤ 2 ^ 53) :
    numberOf (toString n) = .ok (Number.ofInt n) :=
  numberOf_eq_ok_iff.mpr (Number.parse?_toString hn)

/--
**What becomes of a whole number.**  Up to `2 ^ 53` and down to `-2 ^ 53`, `floor`, `ceil` and
`number` give back the text of a whole number that they are handed.  So does `round`, but for
the odd numbers beyond `2 ^ 52` on either side: there a half more cannot be represented, the sum
goes to the even side, and what comes out is the next whole number.
-/
theorem round_whole {n : Int} (hn : n.natAbs ≤ 2 ^ 53) :
    ∃ round floor ceil number, registry.get? "round" = some round ∧
      registry.get? "floor" = some floor ∧ registry.get? "ceil" = some ceil ∧
      registry.get? "number" = some number ∧
      ∀ chance,
        round.handler chance [toString n] =
          .ok (.ofValue (toString (if n % 2 = 1 ∧ 2 ^ 52 < n.natAbs then n + 1 else n))) ∧
        floor.handler chance [toString n] = .ok (.ofValue (toString n)) ∧
        ceil.handler chance [toString n] = .ok (.ofValue (toString n)) ∧
        number.handler chance [toString n] = .ok (.ofValue (toString n)) := by
  have hread := numberOf_toString hn
  have hnext : (if n % 2 = 1 ∧ 2 ^ 52 < n.natAbs then n + 1 else n).natAbs ≤ 2 ^ 53 := by
    split <;> omega
  refine ⟨ofNumber "round" (.argumentMissing "_round") Number.round,
    ofNumber "floor" (.singleExpected "math.floor") Number.floor,
    ofNumber "ceil" (.singleExpected "math.ceil") Number.ceil,
    unary "number" fun a => (numberOf a).map Number.text, rfl, rfl, rfl, rfl, fun chance => ?_⟩
  refine ⟨?_, ?_, ?_, ?_⟩
  · rw [handler_ofNumber _ _ _ _ hread, Number.round_ofInt hn, ← Number.text_ofInt hnext]
    rfl
  · rw [handler_ofNumber _ _ _ _ hread, Number.floor_ofInt hn, ← Number.text_ofInt hn]
    rfl
  · rw [handler_ofNumber _ _ _ _ hread, Number.ceil_ofInt hn, ← Number.text_ofInt hn]
    rfl
  · rw [handler_unary, hread, ← Number.text_ofInt hn]
    rfl

/-- An odd number below zero that is half a unit too long, and one just short enough. -/
theorem round_whole_samples :
    (-4503599627370497 : Int).natAbs ≤ 2 ^ 53 ∧ (4503599627370495 : Int).natAbs ≤ 2 ^ 53 ∧
    ∃ round floor, registry.get? "round" = some round ∧ registry.get? "floor" = some floor ∧
      round.handler (.constant 0) ["-4503599627370497"] = .ok (.ofValue "-4503599627370496") ∧
      floor.handler (.constant 0) ["-4503599627370497"] = .ok (.ofValue "-4503599627370497") ∧
      round.handler (.constant 0) ["4503599627370495"] = .ok (.ofValue "4503599627370495") := by
  have hlong : (-4503599627370497 : Int).natAbs ≤ 2 ^ 53 := by decide
  have hshort : (4503599627370495 : Int).natAbs ≤ 2 ^ 53 := by decide
  obtain ⟨round, floor, _, _, hround, hfloor, -, -, hlongResult⟩ := round_whole hlong
  obtain ⟨round', _, _, _, hround', -, -, -, hshortResult⟩ := round_whole hshort
  obtain rfl : round = round' := Option.some.inj (hround.symm.trans hround')
  obtain ⟨hlongRound, hlongFloor, -⟩ := hlongResult (.constant 0)
  exact ⟨hlong, hshort, round, floor, hround, hfloor, hlongRound, hlongFloor,
    (hshortResult (.constant 0)).1⟩

/--
Half a unit more than `2 ^ 52 + 1` lies between two numbers and goes to the even one, which is
beyond the whole number that was asked for; `floor` keeps the number.
-/
theorem round_ne_whole :
    (4503599627370497 : Int).natAbs ≤ 2 ^ 53 ∧
    toString (4503599627370497 : Int) = "4503599627370497" ∧
    ∃ round floor, registry.get? "round" = some round ∧ registry.get? "floor" = some floor ∧
      round.handler (.constant 0) ["4503599627370497"] = .ok (.ofValue "4503599627370498") ∧
      floor.handler (.constant 0) ["4503599627370497"] = .ok (.ofValue "4503599627370497") := by
  refine ⟨by decide, rfl, ofNumber "round" (.argumentMissing "_round") Number.round,
    ofNumber "floor" (.singleExpected "math.floor") Number.floor, rfl, rfl, ?_, ?_⟩
  · decide +kernel
  · decide +kernel

end Builtin

end Eel
