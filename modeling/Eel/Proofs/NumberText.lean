/-
The text of a number is read back as the number.

Numbers travel between commands as text, so a computation of several steps is right only if no
step of it changes a number by writing it down.  The text is laid out in one of five ways: the
three words, a whole number, and a decimal with or without an exponent mark.  Whatever the way,
it is the text of a numeral, and the numeral stands for the number that was written.  Only the
sign of a zero is lost.

So two numbers are equal exactly if their texts are, NaN apart: it has a text like any other
number, but is equal to no number, not even to itself.
-/
import Eel.Proofs.Doubles
import Eel.Proofs.Numerals
import Eel.Proofs.OneLine
import Eel.Proofs.Rounding
import Eel.Proofs.RoundTrip

namespace Eel

/-! ### Digits -/

namespace Text

/-- The plain digits are digits, with the values that they have everywhere. -/
theorem digit?_of_isDigit {c : Char} (h : c.isDigit = true) : digit? c = some (c.toNat - 48) := by
  have hrange : 48 ≤ c.toNat ∧ c.toNat < 48 + 10 := by
    simp only [Char.isDigit, Bool.and_eq_true, decide_eq_true_eq, ge_iff_le] at h
    have hlow : 48 ≤ c.toNat := h.1
    have hhigh : c.toNat ≤ 57 := h.2
    omega
  have hfind : zeros.find? (fun z => z ≤ c.toNat && c.toNat < z + 10) = some 48 :=
    List.find?_cons_of_pos (by simp [hrange])
  rw [digit?, hfind]
  rfl

theorem isDigit_of_isDigit {c : Char} (h : c.isDigit = true) : isDigit c = true := by
  rw [isDigit, digit?_of_isDigit h]
  rfl

/-- A row of plain digits spells what it spells everywhere. -/
theorem natOfDigits_eq {cs : List Char} (h : ∀ c ∈ cs, c.isDigit = true) :
    natOfDigits cs = Nat.ofDigitChars 10 cs 0 := by
  rw [Nat.ofDigitChars_eq_foldl, natOfDigits]
  generalize 0 = start
  induction cs generalizing start with
  | nil => rfl
  | cons c cs ih =>
    have hvalue : digitValue c = c.toNat - '0'.toNat := by
      rw [digitValue, digit?_of_isDigit (h c (by simp))]
      rfl
    rw [List.foldl_cons, List.foldl_cons, hvalue]
    exact ih (fun d hd => h d (by simp [hd])) _

end Text

namespace Number

open Text

/-- The text of a numeral is read as its value. -/
theorem parse?_ofList_text (n : Numeral) : parse? (String.ofList n.text) = some n.value :=
  parse?_eq_some_iff.mpr ⟨n, by rw [String.toList_ofList, n.trimmed_text.trim_self], rfl⟩

/-! ### Layouts -/

theorem isDigit_of_mem_natText {n : Nat} {c : Char} (h : c ∈ natText n) : c.isDigit = true :=
  Nat.isDigit_of_mem_toDigits (by decide) (by decide) h

theorem natOfDigits_natText (n : Nat) : natOfDigits (natText n) = n := by
  rw [natOfDigits_eq fun _ => isDigit_of_mem_natText]
  exact Nat.ofDigitChars_toDigits (by decide) (by decide)

theorem isDigit_of_mem_zeros {k : Nat} {c : Char} (h : c ∈ List.replicate k '0') :
    c.isDigit = true := by
  rw [List.eq_of_mem_replicate h]
  decide

theorem isDigit_leading (k n : Nat) :
    ∀ c ∈ List.replicate k '0' ++ natText n, c.isDigit = true :=
  List.forall_mem_append.mpr ⟨fun _ => isDigit_of_mem_zeros, fun _ => isDigit_of_mem_natText⟩

theorem isDigit_trailing (n k : Nat) :
    ∀ c ∈ natText n ++ List.replicate k '0', c.isDigit = true :=
  List.forall_mem_append.mpr ⟨fun _ => isDigit_of_mem_natText, fun _ => isDigit_of_mem_zeros⟩

/-- Zeros in front of a number do not count. -/
theorem natOfDigits_leading (k n : Nat) :
    natOfDigits (List.replicate k '0' ++ natText n) = n := by
  rw [natOfDigits_eq (isDigit_leading k n), Nat.ofDigitChars_append,
    Nat.ofDigitChars_replicate_zero, Nat.mul_zero]
  exact Nat.ofDigitChars_toDigits (by decide) (by decide)

/-- Each zero behind a number multiplies it by ten. -/
theorem natOfDigits_trailing (n k : Nat) :
    natOfDigits (natText n ++ List.replicate k '0') = n * 10 ^ k := by
  rw [natOfDigits_eq (isDigit_trailing n k), Nat.ofDigitChars_append,
    Nat.ofDigitChars_replicate_zero, ← natOfDigits_eq fun _ => isDigit_of_mem_natText,
    natOfDigits_natText, Nat.mul_comm]

/-- A row of plain digits. -/
def Digits.ofPlain (cs : List Char) (hne : cs ≠ []) (h : ∀ c ∈ cs, c.isDigit = true) : Digits :=
  ⟨cs, hne, fun c hc => isDigit_of_isDigit (h c hc)⟩

/-- The digits of a natural number. -/
def Digits.ofNat (n : Nat) : Digits :=
  .ofPlain (natText n) Nat.toDigits_ne_nil fun _ => isDigit_of_mem_natText

/-- A positional text spells the decimal that was laid out. -/
theorem exists_positional {n : Nat} (hn : 0 < n) (e : Int) :
    ∃ m : Mantissa, m.text = Layout.value.positional (natText n) e ∧
      (DecimalNumeral.mk m none).value.place = (Decimal.mk n e).place := by
  have hplain : ∀ c ∈ natText n, c.isDigit = true := fun _ => isDigit_of_mem_natText
  unfold Layout.positional
  split
  · obtain ⟨k, rfl⟩ : ∃ k : Nat, e = k := ⟨e.toNat, by omega⟩
    refine ⟨.whole (.ofPlain _ (by simp [natText]) (isDigit_trailing n k)), ?_, ?_⟩
    · rw [Int.toNat_natCast]
      exact (List.append_nil _).symm
    · rw [← Decimal.place_trailing hn k, ← natOfDigits_trailing n k]
      simp [DecimalNumeral.value, Mantissa.front, Mantissa.behind, Digits.ofPlain]
  obtain ⟨k, hk, rfl⟩ : ∃ k : Nat, 0 < k ∧ e = -(k : Int) := ⟨(-e).toNat, by omega, by omega⟩
  simp only [Int.neg_neg, Int.toNat_natCast]
  split
  · rename_i hshort
    refine ⟨.pointed (.ofPlain ((natText n).take ((natText n).length - k)) ?_ ?_)
      (some (.ofPlain ((natText n).drop ((natText n).length - k)) ?_ ?_)), rfl, ?_⟩
    · rw [← List.length_pos_iff, List.length_take]
      omega
    · exact fun c hc => hplain c (List.mem_of_mem_take hc)
    · rw [← List.length_pos_iff, List.length_drop]
      omega
    · exact fun c hc => hplain c (List.mem_of_mem_drop hc)
    · have hlength : (natText n).length - ((natText n).length - k) = k := by omega
      simp [DecimalNumeral.value, Mantissa.front, Mantissa.behind, Digits.ofPlain,
        natOfDigits_natText, hlength]
  · rename_i hlong
    have hdigits := natOfDigits_leading (k - (natText n).length + 1) n
    have hlength : k - (natText n).length + (natText n).length = k := by omega
    refine ⟨.pointed (.ofPlain ['0'] (by simp) (by simp))
      (some (.ofPlain _ (by simp [natText]) (isDigit_leading _ n))), rfl, ?_⟩
    rw [List.replicate_succ, List.cons_append] at hdigits
    simp [DecimalNumeral.value, Mantissa.front, Mantissa.behind, Digits.ofPlain, hdigits, hlength]

/-- A text with an exponent mark spells the decimal that was laid out. -/
theorem exists_exponential (n : Nat) (e : Int) :
    ∃ m : DecimalNumeral, m.value = ⟨n, e⟩ ∧
      m.text = Layout.value.exponential (natText n) (e + ((natText n).length - 1 : Nat)) := by
  generalize hleading : e + ((natText n).length - 1 : Nat) = leading
  have hplain : ∀ c ∈ natText n, c.isDigit = true := fun _ => isDigit_of_mem_natText
  have hwidth : Layout.value.exponentWidth - (natText leading.natAbs).length = 0 := by
    have hlength : 0 < (natText leading.natAbs).length := Nat.length_toDigits_pos
    change 1 - _ = 0
    omega
  obtain ⟨x, hvalue, htext⟩ : ∃ x : Exponent, x.value = leading ∧
      x.text = 'e' :: (if leading < 0 then '-' else '+') :: natText leading.natAbs := by
    have habs : natOfDigits (Digits.ofNat leading.natAbs).chars = leading.natAbs :=
      natOfDigits_natText _
    by_cases hneg : leading < 0
    · refine ⟨⟨false, .minus, .ofNat leading.natAbs⟩, ?_, by rw [if_pos hneg]; rfl⟩
      change -((natOfDigits (Digits.ofNat leading.natAbs).chars : Nat) : Int) = leading
      omega
    · refine ⟨⟨false, .plus, .ofNat leading.natAbs⟩, ?_, by rw [if_neg hneg]; rfl⟩
      change ((natOfDigits (Digits.ofNat leading.natAbs).chars : Nat) : Int) = leading
      omega
  have hdigits := natOfDigits_natText n
  unfold Layout.exponential
  simp only [hwidth, List.replicate_zero, List.nil_append, ← htext]
  match hds : natText n with
  | [] => exact absurd hds Nat.toDigits_ne_nil
  | [d] =>
    rw [hds] at hplain hdigits hleading
    refine ⟨⟨.whole (.ofPlain [d] (by simp) hplain), some x⟩, ?_, rfl⟩
    simp [DecimalNumeral.value, Mantissa.front, Mantissa.behind, Digits.ofPlain, hdigits, hvalue,
      ← hleading]
  | d :: d' :: ds =>
    rw [hds] at hplain hdigits hleading
    refine ⟨⟨.pointed (.ofPlain [d] (by simp) fun c hc => hplain c (by simp_all))
      (some (.ofPlain (d' :: ds) (by simp) fun c hc => hplain c (List.mem_cons_of_mem d hc))),
      some x⟩, ?_, rfl⟩
    simp [DecimalNumeral.value, Mantissa.front, Mantissa.behind, Digits.ofPlain, hdigits, hvalue,
      ← hleading]

/-- What is laid out is a numeral that reads as the decimal it was laid out for. -/
theorem exists_write {d : Decimal} (hd : 0 < d.digits) :
    ∃ n : DecimalNumeral, n.text = Layout.value.write d ∧ n.value.place = d.place := by
  unfold Layout.write
  simp only
  split
  · obtain ⟨m, htext, hplace⟩ := exists_positional hd d.exponent
    exact ⟨⟨m, none⟩, by rw [← htext]; exact List.append_nil _, hplace⟩
  · obtain ⟨n, hvalue, htext⟩ := exists_exponential d.digits d.exponent
    exact ⟨n, htext, by rw [hvalue]⟩

/-! ### The text of a number -/

/-- A sign in front of a decimal numeral. -/
theorem exists_signed (negative : Bool) (n : DecimalNumeral) :
    ∃ m : Numeral, m.text = signed negative n.text ∧
      m.value = ofPlace negative n.value.place := by
  cases negative with
  | false => exact ⟨⟨.absent, .decimal n⟩, rfl, rfl⟩
  | true => exact ⟨⟨.minus, .decimal n⟩, rfl, rfl⟩

theorem size_eq_zero_iff {x : Float} : size x = 0 ↔ place x = 0 :=
  units_strictMono.injective.eq_iff' units_zero

/-- A zero is written as a whole number. -/
theorem written_whole_of_place_eq_zero {x : Float} (h : place x = 0) :
    (isWhole x && size x < Nat.pow 10 21 * unitsPerOne) = true := by
  rw [isWhole, size_eq_zero_iff.mpr h, Nat.zero_mod]
  simpa using unitsPerOne_pos

/-- What a number is read back as: itself, but for the sign of a zero. -/
def readBack (x : Float) : Float := if x == 0 then 0 else x

theorem readBack_of_place_eq_zero {x : Float} (h : place x = 0) : readBack x = 0 :=
  if_pos (beq_zero_iff.mpr h)

theorem readBack_of_place_ne_zero {x : Float} (h : place x ≠ 0) : readBack x = x :=
  if_neg (mt beq_zero_iff.mp h)

theorem exists_infinity {x : Float} (h : place x = top) :
    ∃ n : Numeral, (if isNegative x then "-Infinity" else "Infinity") = String.ofList n.text ∧
      n.value = x := by
  have hvalue : infinity (isNegative x) = x := by
    rw [infinity, ← h, ofPlace_place]
  cases hsign : isNegative x with
  | false =>
    rw [hsign] at hvalue
    exact ⟨⟨.absent, .infinity⟩, rfl, hvalue⟩
  | true =>
    rw [hsign] at hvalue
    exact ⟨⟨.minus, .infinity⟩, rfl, hvalue⟩

/-- A whole number is written with its digits, and a zero without its sign. -/
theorem exists_whole {x : Float} (htop : place x ≤ top) {n : Nat}
    (hsize : size x = n * unitsPerOne) :
    ∃ m : Numeral, m.text = signed (isNegative x && n != 0) (natText n) ∧
      m.value = readBack x := by
  have hdigits : (DecimalNumeral.mk (.whole (.ofNat n)) none).value = ⟨n, 0⟩ := by
    simp [DecimalNumeral.value, Mantissa.front, Mantissa.behind, Digits.ofNat, Digits.ofPlain,
      natOfDigits_natText]
  obtain ⟨m, htext, hvalue⟩ := exists_signed (isNegative x && n != 0) ⟨.whole (.ofNat n), none⟩
  refine ⟨m, htext.trans (congrArg (signed _) (List.append_nil (natText n))), ?_⟩
  rw [hvalue, hdigits]
  rcases Nat.eq_zero_or_pos n with rfl | hn
  · rw [Nat.zero_mul, size_eq_zero_iff] at hsize
    rw [readBack_of_place_eq_zero hsize, bne_self_eq_false, Bool.and_false]
    rfl
  · have hne : n ≠ 0 := Nat.pos_iff_ne_zero.mp hn
    have hzero : place x ≠ 0 := by
      rw [ne_eq, ← size_eq_zero_iff, hsize]
      exact Nat.mul_ne_zero hne (Nat.pos_iff_ne_zero.mp unitsPerOne_pos)
    rw [readBack_of_place_ne_zero hzero, Decimal.place_whole hn htop hsize,
      bne_iff_ne.mpr hne, Bool.and_true, ofPlace_place]

/-- Any other number is written with the digits of its shortest decimal. -/
theorem exists_shortest {x : Float} (htop : place x ≤ top) (hzero : place x ≠ 0) :
    ∃ m : Numeral, m.text = signed (isNegative x) (Layout.value.write (shortest (place x))) ∧
      m.value = readBack x := by
  obtain ⟨hpos, hplace⟩ := place_shortest (Nat.pos_of_ne_zero hzero) htop
  obtain ⟨d, hdtext, hdplace⟩ := exists_write hpos
  obtain ⟨m, htext, hvalue⟩ := exists_signed (isNegative x) d
  refine ⟨m, by rw [htext, hdtext], ?_⟩
  rw [hvalue, hdplace, hplace, readBack_of_place_ne_zero hzero, ofPlace_place]

/-- **The text of a number is a numeral that stands for it**, but for the sign of a zero. -/
theorem exists_text (x : Float) :
    ∃ n : Numeral, text x = String.ofList n.text ∧ n.value = readBack x := by
  unfold text
  split
  · rename_i hnan
    obtain rfl := isNaN_iff.mp hnan
    exact ⟨⟨.absent, .nan⟩, rfl, (readBack_of_place_ne_zero place_nan_ne_zero).symm⟩
  rename_i hnan
  have htop := place_le_top (Bool.eq_false_iff.mpr hnan)
  split
  · rename_i hinf
    have hplace := isInf_iff.mp hinf
    rw [readBack_of_place_ne_zero (by rw [hplace]; decide)]
    exact exists_infinity hplace
  split
  · rename_i hwhole
    simp only [isWhole, Bool.and_eq_true, beq_iff_eq] at hwhole
    obtain ⟨m, htext, hvalue⟩ :=
      exists_whole htop (Nat.div_mul_cancel (Nat.dvd_of_mod_eq_zero hwhole.1)).symm
    exact ⟨m, by rw [htext], hvalue⟩
  · rename_i hwhole
    obtain ⟨m, htext, hvalue⟩ := exists_shortest htop (mt written_whole_of_place_eq_zero hwhole)
    exact ⟨m, by rw [htext], hvalue⟩

theorem parse?_text (x : Float) : parse? (text x) = some (readBack x) := by
  obtain ⟨n, htext, hvalue⟩ := exists_text x
  rw [htext, parse?_ofList_text, hvalue]

/-! ### Equality of numbers and of their texts -/

theorem readBack_eq_iff {x y : Float} :
    readBack x = readBack y ↔ x = y ∨ place x = 0 ∧ place y = 0 := by
  by_cases hx : place x = 0
  · by_cases hy : place y = 0
    · simp [readBack_of_place_eq_zero, hx, hy]
    · rw [readBack_of_place_eq_zero hx, readBack_of_place_ne_zero hy]
      constructor
      · rintro rfl
        exact absurd place_zero hy
      · rintro (rfl | ⟨-, hy'⟩)
        · exact absurd hx hy
        · exact absurd hy' hy
  · by_cases hy : place y = 0
    · rw [readBack_of_place_ne_zero hx, readBack_of_place_eq_zero hy]
      constructor
      · rintro rfl
        exact absurd place_zero hx
      · rintro (rfl | ⟨hx', -⟩)
        · exact absurd hy hx
        · exact absurd hx' hx
    · simp [readBack_of_place_ne_zero, hx, hy]

theorem readBack_nan : readBack nan = nan := readBack_of_place_ne_zero place_nan_ne_zero

theorem readBack_eq_nan_iff {x : Float} : readBack x = nan ↔ x = nan := by
  conv => lhs; rw [← readBack_nan]
  rw [readBack_eq_iff, or_iff_left fun h => place_nan_ne_zero h.2]

theorem beq_readBack (x y : Float) : (readBack x == readBack y) = (x == y) := by
  have hplace : ∀ z, place (readBack z) = 0 ↔ place z = 0 := by
    intro z
    by_cases hz : place z = 0
    · simp [readBack_of_place_eq_zero hz, hz, place_zero]
    · simp [readBack_of_place_ne_zero hz]
  rw [Bool.eq_iff_iff, beq_iff, beq_iff]
  simp only [ne_eq, readBack_eq_nan_iff, readBack_eq_iff, hplace, or_assoc, or_self]

theorem readBack_beq {x : Float} (h : x ≠ nan) : (readBack x == x) = true := by
  rw [beq_iff, ne_eq, readBack_eq_nan_iff]
  refine ⟨h, h, ?_⟩
  by_cases hx : place x = 0
  · rw [readBack_of_place_eq_zero hx]
    exact .inr ⟨place_zero, hx⟩
  · exact .inl (readBack_of_place_ne_zero hx)

theorem toBits_readBack (x : Float) :
    (readBack x).toBits = if x == 0 then 0 else x.toBits := by
  unfold readBack
  split
  · decide
  · rfl

theorem text_of_place_eq_zero {x : Float} (h : place x = 0) : text x = "0" := by
  have hnan : ¬ x.isNaN = true := by
    intro hnan
    rw [isNaN_iff.mp hnan] at h
    exact place_nan_ne_zero h
  have hinf : ¬ x.isInf = true := by
    rw [isInf_iff, h]
    decide
  rw [text, if_neg hnan, if_neg hinf, if_pos (written_whole_of_place_eq_zero h),
    size_eq_zero_iff.mpr h, Nat.zero_div]
  change String.ofList (signed (isNegative x && 0 != 0) (natText 0)) = "0"
  rw [bne_self_eq_false, Bool.and_false]
  rfl

/-- Two texts are the same if the numbers are, up to the sign of zero. -/
theorem text_eq_iff {x y : Float} : text x = text y ↔ x = y ∨ place x = 0 ∧ place y = 0 := by
  constructor
  · intro h
    have hread := congrArg parse? h
    rw [parse?_text, parse?_text] at hread
    exact readBack_eq_iff.mp (Option.some.inj hread)
  · rintro (rfl | ⟨hx, hy⟩)
    · rfl
    · rw [text_of_place_eq_zero hx, text_of_place_eq_zero hy]

theorem text_eq_nan_iff {x : Float} : text x = "NaN" ↔ x = nan := by
  have hnan : text nan = "NaN" := if_pos (isNaN_iff.mpr rfl)
  rw [← hnan, text_eq_iff, or_iff_left fun h => place_nan_ne_zero h.2]

theorem text_readBack (x : Float) : text (readBack x) = text x := by
  refine text_eq_iff.mpr (readBack_eq_iff.mp ?_)
  by_cases hx : place x = 0
  · rw [readBack_of_place_eq_zero hx, readBack_of_place_eq_zero place_zero]
  · rw [readBack_of_place_ne_zero hx, readBack_of_place_ne_zero hx]

end Number

/-! ### Results of commands -/

/-- What the command gives is the text of a number. -/
def Command.GivesNumbers (c : Command) : Prop :=
  ∀ chance params, EndsIn (fun o => ∃ x, o = .ofValue (Number.text x)) (fun _ => True)
    (c.handler chance params)

namespace Builtin

theorem endsIn_numberOutcome {x : Except Fault Float} :
    EndsIn (fun o => ∃ x, o = .ofValue (Number.text x)) (fun _ => True)
      (do return numberOutcome (← x)) := by
  cases x with
  | error fault => exact .error trivial
  | ok x => exact .ok ⟨x, rfl⟩

theorem givesNumbers_ofNumber (name : String) (shortage : Fault)
    (f : Float → Except Fault Float) : (ofNumber name shortage f).GivesNumbers := by
  intro chance params
  change EndsIn _ _ ((params.take 1).mapM numberOf >>= _)
  match (params.take 1).mapM numberOf with
  | .error fault => exact .error trivial
  | .ok [] => exact .error trivial
  | .ok (x :: _) => exact endsIn_numberOutcome

theorem givesNumbers_ofNumbers (name : String) (shortage : Nat → Fault)
    (f : Float → Float → Except Fault Float) : (ofNumbers name shortage f).GivesNumbers := by
  intro chance params
  change EndsIn _ _ ((params.take 2).mapM numberOf >>= _)
  match (params.take 2).mapM numberOf with
  | .error fault => exact .error trivial
  | .ok [] => exact .error trivial
  | .ok [x] => exact .error trivial
  | .ok (x :: y :: _) => exact endsIn_numberOutcome

theorem givesNumbers_of_mem_numeric : ∀ c ∈ numeric, c.GivesNumbers := by
  simp [numeric, elementary, givesNumbers_ofNumber, givesNumbers_ofNumbers]

theorem handler_unary (name : String) (f : String → Except Fault String) (chance : Chance)
    (a : String) : (unary name f).handler chance [a] = (f a).map Outcome.ofValue := rfl

theorem looselyEqual_text (x y : Float) :
    looselyEqual (Number.text x) (Number.text y) = (x == y) := by
  rw [looselyEqual, eitherWay, Number.parse?_text, Number.parse?_text]
  exact Number.beq_readBack x y

/-- The two equalities differ on two NaNs and agree on all other numbers. -/
theorem text_beq_text_iff (x y : Float) :
    (Number.text x == Number.text y) = looselyEqual (Number.text x) (Number.text y) ↔
      ¬ (x = Number.nan ∧ y = Number.nan) := by
  rw [looselyEqual_text, Bool.eq_iff_iff, beq_iff_eq, Number.text_eq_iff, Number.beq_iff]
  constructor
  · rintro h ⟨rfl, rfl⟩
    exact (h.mp (.inl rfl)).1 rfl
  · intro hnan
    have hne : x = y ∨ Number.place x = 0 ∧ Number.place y = 0 →
        x ≠ Number.nan ∧ y ≠ Number.nan := by
      rintro (rfl | ⟨hx, hy⟩)
      · exact ⟨fun h => hnan ⟨h, h⟩, fun h => hnan ⟨h, h⟩⟩
      · constructor <;> rintro rfl
        · exact Number.place_nan_ne_zero hx
        · exact Number.place_nan_ne_zero hy
    exact ⟨fun h => ⟨(hne h).1, (hne h).2, h⟩, fun h => h.2.2⟩

theorem numberOf_text (x : Float) : numberOf (Number.text x) = .ok (Number.readBack x) :=
  numberOf_eq_ok_iff.mpr (Number.parse?_text x)

theorem truthText_injective : Function.Injective truthText := by
  decide

/-- A number that is written down is a number of its own text. -/
theorem map_text_numberOf {a value : String} (h : (numberOf a).map Number.text = .ok value) :
    (numberOf value).map Number.text = .ok value := by
  cases hx : numberOf a with
  | error fault =>
    rw [hx] at h
    cases h
  | ok x =>
    rw [hx] at h
    obtain rfl : Number.text x = value := Except.ok.inj h
    rw [numberOf_text]
    exact congrArg Except.ok (Number.text_readBack x)

/--
**Numbers survive being written down.**  Every number but NaN is read back from its text as a
number equal to it, bit by bit unless it is a zero, which loses its sign; and NaN is read back
as NaN.  So numbers other than NaN have the same text exactly if they are equal.  Of two
results of numeric commands, equality as texts and equality as numbers say the same, unless
both are NaN.  And a text that `number` accepts is changed by it at most once.
-/
theorem number_text_faithful :
    (∀ x : Float, x.isNaN = false → ∃ y, numberOf (Number.text x) = .ok y ∧ (y == x) = true ∧
      y.toBits = if x == 0 then 0 else x.toBits) ∧
    (∀ x : Float, x.isNaN = true → ∃ y, numberOf (Number.text x) = .ok y ∧ y.isNaN = true) ∧
    (∀ x y : Float, x.isNaN = false → y.isNaN = false →
      (Number.text x = Number.text y ↔ (x == y) = true)) ∧
    ∃ equals loosely number, registry.get? "equals" = some equals ∧
      registry.get? "looselyequals" = some loosely ∧ registry.get? "number" = some number ∧
      (∀ c ∈ numeric, ∀ c' ∈ numeric, ∀ chance params chance' params' o o',
        c.handler chance params = .ok o → c'.handler chance' params' = .ok o' →
        ∀ later, equals.handler later [o.value, o'.value] =
            loosely.handler later [o.value, o'.value] ↔
          ¬ (o.value = "NaN" ∧ o'.value = "NaN")) ∧
      ∀ chance a o, number.handler chance [a] = .ok o →
        number.handler chance [o.value] = .ok o := by
  refine ⟨fun x hx => ⟨_, numberOf_text x, Number.readBack_beq (Number.ne_nan_of_isNaN hx),
      Number.toBits_readBack x⟩, ?_, ?_, binary "equals" fun a b => truthText (a == b),
    binary "looselyequals" fun a b => truthText (looselyEqual a b),
    unary "number" fun a => (numberOf a).map Number.text, rfl, rfl, rfl, ?_, ?_⟩
  · intro x hx
    obtain rfl := Number.isNaN_iff.mp hx
    exact ⟨_, numberOf_text _, by rw [Number.readBack_nan, hx]⟩
  · intro x y hx hy
    rw [Number.text_eq_iff, Number.beq_iff]
    simp [Number.ne_nan_of_isNaN hx, Number.ne_nan_of_isNaN hy]
  · intro c hc c' hc' chance params chance' params' o o' ho ho' later
    have hvalue := givesNumbers_of_mem_numeric c hc chance params
    have hvalue' := givesNumbers_of_mem_numeric c' hc' chance' params'
    rw [ho, endsIn_ok] at hvalue
    rw [ho', endsIn_ok] at hvalue'
    obtain ⟨x, rfl⟩ := hvalue
    obtain ⟨y, rfl⟩ := hvalue'
    have hanswers : ∀ s t : Bool, (Except.ok (.ofValue (truthText s)) : Except Fault Outcome) =
        .ok (.ofValue (truthText t)) ↔ s = t := by
      simp [Outcome.ofValue, truthText_injective.eq_iff]
    refine (hanswers _ _).trans ((text_beq_text_iff x y).trans ?_)
    rw [Outcome.ofValue, Outcome.ofValue, Number.text_eq_nan_iff, Number.text_eq_nan_iff]
  · intro chance a o ho
    rw [handler_unary] at ho ⊢
    cases hvalue : (numberOf a).map Number.text with
    | error fault =>
      rw [hvalue] at ho
      cases ho
    | ok value =>
      rw [hvalue] at ho
      obtain rfl : Outcome.ofValue value = o := Except.ok.inj ho
      have hagain : (numberOf (Outcome.ofValue value).value).map Number.text = .ok value :=
        map_text_numberOf hvalue
      rw [hagain]
      rfl

/--
A number with an exponent mark, a whole number of twenty-one digits, and a sum and a product
that come to the same number beside three tenths.
-/
theorem number_text_faithful_samples :
    (1.5e-7 : Float).isNaN = false ∧ Number.text 1.5e-7 = "1.5e-7" ∧
    (∃ y, numberOf "1.5e-7" = .ok y ∧ (y == 1.5e-7) = true) ∧
    Number.text 123456789012345680000 = "123456789012345683968" ∧
    ∃ add mul equals loosely, registry.get? "add" = some add ∧ registry.get? "mul" = some mul ∧
      registry.get? "equals" = some equals ∧ registry.get? "looselyequals" = some loosely ∧
      add.handler (.constant 0) ["0.1", "0.2"] = .ok (.ofValue "0.30000000000000004") ∧
      mul.handler (.constant 0) ["0.1", "3"] = .ok (.ofValue "0.30000000000000004") ∧
      equals.handler (.constant 0) ["0.30000000000000004", "0.30000000000000004"] =
        loosely.handler (.constant 0) ["0.30000000000000004", "0.30000000000000004"] := by
  obtain ⟨hread, -, -, equals, loosely, -, hequals, hloosely, -, hagree, -⟩ :=
    number_text_faithful
  have hnan : (1.5e-7 : Float).isNaN = false := by decide
  have htext : Number.text 1.5e-7 = "1.5e-7" := by decide +kernel
  obtain ⟨y, hy, hequal, -⟩ := hread 1.5e-7 hnan
  rw [htext] at hy
  have hadd : (ofNumbers "add" (.pairExpected "add") fun x y => .ok (x + y)).handler (.constant 0)
      ["0.1", "0.2"] = .ok (.ofValue "0.30000000000000004") := by decide +kernel
  have hmul : (ofNumbers "mul" (.pairExpected "mul") fun x y => .ok (x * y)).handler (.constant 0)
      ["0.1", "3"] = .ok (.ofValue "0.30000000000000004") := by decide +kernel
  exact ⟨hnan, htext, ⟨y, hy, hequal⟩, by decide +kernel, _, _, equals, loosely, rfl, rfl, hequals,
    hloosely, hadd, hmul, (hagree _ (by simp [numeric]) _ (by simp [numeric]) (.constant 0) _
      (.constant 0) _ _ _ hadd hmul (.constant 0)).mpr (by decide)⟩

/--
The difference of two infinities is NaN.  As texts two such results are equal, as numbers they
are not.
-/
theorem equals_ne_looselyequals :
    ∃ sub equals loosely, registry.get? "sub" = some sub ∧ sub ∈ numeric ∧
      registry.get? "equals" = some equals ∧ registry.get? "looselyequals" = some loosely ∧
      ∃ o, sub.handler (.constant 0) ["Infinity", "Infinity"] = .ok o ∧
        equals.handler (.constant 0) [o.value, o.value] = .ok (.ofValue "true") ∧
        loosely.handler (.constant 0) [o.value, o.value] = .ok (.ofValue "false") := by
  refine ⟨ofNumbers "sub" (.pairExpected "sub") fun x y => .ok (x - y),
    binary "equals" fun a b => truthText (a == b),
    binary "looselyequals" fun a b => truthText (looselyEqual a b), rfl, ?_, rfl, rfl,
    .ofValue "NaN", ?_, ?_, ?_⟩
  · simp [numeric]
  · decide +kernel
  · rfl
  · decide +kernel

end Builtin

end Eel
