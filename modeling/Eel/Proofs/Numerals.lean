/-
The texts that spell numbers.

`Numeral` is the grammar of numerals, as trees: an optional sign in front of `Infinity`, `NaN`
or a decimal, and a decimal is a mantissa with an optional exponent.  `Numeral.text` spells a
tree out, and `Numeral.value` says which number it stands for.

A text is read in two stages that know nothing of trees.  The pattern only tells whether a text
is a numeral.  It is put together as the grammar is, so each part of it describes the texts of
one kind of tree.  The conversion goes through a text once, from left to right, and takes all
the digits it can get before it looks for a point or for an exponent.  That never takes too many
of them, as nothing that may follow a row of digits in a numeral is a digit itself.  So each
numeral is converted to its value, and the second stage never fails on what passed the first.
-/
import Eel.Builtin.Value
import Eel.Proofs.Patterns
import Eel.Proofs.Trimming

namespace Eel

namespace Number

open Text

/-! ### Numerals -/

/-- A row of one or more decimal digits, of any script. -/
structure Digits where
  chars : List Char
  ne_nil : chars ≠ []
  all_isDigit : ∀ c ∈ chars, isDigit c = true

/-- An optional sign. -/
inductive Sign where
  | absent
  | plus
  | minus

namespace Sign

def text : Sign → List Char
  | absent => []
  | plus => ['+']
  | minus => ['-']

def isMinus : Sign → Bool
  | minus => true
  | _ => false

end Sign

/-- What stands in front of the exponent of a decimal. -/
inductive Mantissa where
  /-- Digits without a point. -/
  | whole (ds : Digits)
  /-- Digits, a point, and further digits if any. -/
  | pointed (ds : Digits) (more : Option Digits)
  /-- A point and digits. -/
  | fraction (ds : Digits)

namespace Mantissa

/-- The digits in front of the point. -/
def front : Mantissa → List Char
  | whole ds | pointed ds _ => ds.chars
  | fraction _ => []

/-- The digits behind the point. -/
def behind : Mantissa → List Char
  | whole _ | pointed _ none => []
  | pointed _ (some ds) | fraction ds => ds.chars

def text : Mantissa → List Char
  | whole ds => ds.chars
  | m => m.front ++ '.' :: m.behind

end Mantissa

/-- An `e` of either case, an optional sign, and digits. -/
structure Exponent where
  capital : Bool
  sign : Sign
  digits : Digits

namespace Exponent

def text (e : Exponent) : List Char :=
  (if e.capital then 'E' else 'e') :: (e.sign.text ++ e.digits.chars)

def value (e : Exponent) : Int :=
  if e.sign.isMinus then -(natOfDigits e.digits.chars : Int) else natOfDigits e.digits.chars

end Exponent

/-- A mantissa with an optional exponent. -/
structure DecimalNumeral where
  mantissa : Mantissa
  exponent : Option Exponent

namespace DecimalNumeral

def text (n : DecimalNumeral) : List Char :=
  n.mantissa.text ++ n.exponent.elim [] Exponent.text

/-- The decimal that is spelled: the digits behind the point lower the exponent. -/
def value (n : DecimalNumeral) : Decimal where
  digits := natOfDigits (n.mantissa.front ++ n.mantissa.behind)
  exponent := n.exponent.elim 0 Exponent.value - n.mantissa.behind.length

end DecimalNumeral

/-- What may stand behind a sign. -/
inductive Unsigned where
  | infinity
  | nan
  | decimal (n : DecimalNumeral)

namespace Unsigned

def text : Unsigned → List Char
  | infinity => "Infinity".toList
  | nan => "NaN".toList
  | decimal n => n.text

/-- The number that is spelled, with a given sign. -/
def value (negative : Bool) : Unsigned → Float
  | infinity => Number.infinity negative
  | nan => Number.nan
  | decimal n => ofPlace negative n.value.place

end Unsigned

/-- An optional sign and what stands behind it. -/
structure Numeral where
  sign : Sign
  magnitude : Unsigned

namespace Numeral

def text (n : Numeral) : List Char := n.sign.text ++ n.magnitude.text

/-- The number that is spelled; a decimal stands for the number nearest to it. -/
def value (n : Numeral) : Float := n.magnitude.value n.sign.isMinus

end Numeral

/-! ### The characters of a numeral -/

section

/-- The characters of numerals that are no digits. -/
def marks : List Char := "+-.eEInfityNa".toList

variable {P : Char → Prop} (hdigit : ∀ c, isDigit c = true → P c) (hmark : ∀ c ∈ marks, P c)

include hdigit in
theorem Digits.forall_chars (ds : Digits) : ∀ c ∈ ds.chars, P c :=
  fun c hc => hdigit c (ds.all_isDigit c hc)

include hmark in
theorem Sign.forall_text (s : Sign) : ∀ c ∈ s.text, P c := by
  cases s with
  | absent => exact List.forall_mem_nil _
  | plus => exact List.forall_mem_singleton.mpr (hmark '+' (by decide))
  | minus => exact List.forall_mem_singleton.mpr (hmark '-' (by decide))

include hdigit hmark

theorem Mantissa.forall_text (m : Mantissa) : ∀ c ∈ m.text, P c := by
  have hpointed : ∀ front behind : List Char, (∀ c ∈ front, P c) → (∀ c ∈ behind, P c) →
      ∀ c ∈ front ++ '.' :: behind, P c := by
    intro front behind hfront hbehind
    exact List.forall_mem_append.mpr
      ⟨hfront, List.forall_mem_cons.mpr ⟨hmark '.' (by decide), hbehind⟩⟩
  rcases m with ds | ⟨ds, _ | more⟩ | ds
  · exact ds.forall_chars hdigit
  · exact hpointed _ [] (ds.forall_chars hdigit) (List.forall_mem_nil _)
  · exact hpointed _ _ (ds.forall_chars hdigit) (more.forall_chars hdigit)
  · exact hpointed [] _ (List.forall_mem_nil _) (ds.forall_chars hdigit)

theorem Exponent.forall_text (e : Exponent) : ∀ c ∈ e.text, P c := by
  refine List.forall_mem_cons.mpr ⟨?_, List.forall_mem_append.mpr
    ⟨e.sign.forall_text hmark, e.digits.forall_chars hdigit⟩⟩
  cases e.capital <;> exact hmark _ (by decide)

/-- What the digits and the marks have, every character of a numeral has. -/
theorem Numeral.forall_text (n : Numeral) : ∀ c ∈ n.text, P c := by
  refine List.forall_mem_append.mpr ⟨n.sign.forall_text hmark, ?_⟩
  rcases n.magnitude with _ | _ | ⟨m, e⟩
  · exact fun c hc => hmark c ((by decide : "Infinity".toList ⊆ marks) hc)
  · exact fun c hc => hmark c ((by decide : "NaN".toList ⊆ marks) hc)
  · refine List.forall_mem_append.mpr ⟨m.forall_text hdigit hmark, ?_⟩
    cases e with
    | none => exact List.forall_mem_nil _
    | some e => exact e.forall_text hdigit hmark

end

/-- A digit is none of the other characters that matter here. -/
theorem ne_of_isDigit {c d : Char} (h : isDigit c = true) (hd : isDigit d = false) : c ≠ d := by
  rintro rfl
  rw [h] at hd
  cases hd

/-- A digit is one of the ten digits of a script. -/
theorem exists_zero_of_isDigit {c : Char} (h : isDigit c = true) :
    ∃ z ∈ zeros, z ≤ c.toNat ∧ c.toNat < z + 10 := by
  obtain ⟨n, hn⟩ := Option.isSome_iff_exists.mp h
  obtain ⟨z, hz, -⟩ := Option.map_eq_some_iff.mp hn
  have hrange := List.find?_some hz
  simp only [Bool.and_eq_true, decide_eq_true_eq] at hrange
  exact ⟨z, List.mem_of_find?_eq_some hz, hrange⟩

/-- No digit of any script is blank. -/
theorem isBlank_of_isDigit {c : Char} (h : isDigit c = true) : isBlank c = false := by
  -- The digits of a script stand between two blanks, or beyond the last one.
  have htable : ∀ z ∈ zeros, (0x20 < z ∧ z + 10 ≤ 0x85) ∨ (0xA0 < z ∧ z + 10 ≤ 0x1680) ∨
      (0x1680 < z ∧ z + 10 ≤ 0x2000) ∨ 0x3000 < z := by
    decide
  obtain ⟨z, hz, hrange⟩ := exists_zero_of_isDigit h
  have hgap := htable z hz
  simp only [isBlank, Bool.or_eq_false_iff, Bool.and_eq_false_iff, decide_eq_false_iff_not,
    beq_eq_false_iff_ne]
  omega

/-- No digit of any script has a case. -/
theorem toLower_of_isDigit {c : Char} (h : isDigit c = true) : c.toLower = c := by
  have htable : ∀ z ∈ zeros, z + 10 ≤ 65 ∨ 90 < z := by decide
  obtain ⟨z, hz, hrange⟩ := exists_zero_of_isDigit h
  have hgap := htable z hz
  have hcapital : ¬ (65 ≤ c.toNat ∧ c.toNat ≤ 90) := by omega
  unfold Char.toLower
  exact dif_neg hcapital

theorem Numeral.trimmed_text (n : Numeral) : Trimmed n.text := by
  have hmarks : (marks.all fun c => !isBlank c) = true := by decide
  exact .of_not_blank (n.forall_text (fun _ => isBlank_of_isDigit) (by simpa using hmarks))

/-! ### Numerals are converted -/

/-- A text without underscores stays as it is. -/
theorem dropUnderscores?_eq {cs : List Char} (h : ∀ c ∈ cs, c ≠ '_') (behindDigit : Bool) :
    dropUnderscores? behindDigit cs = some cs := by
  induction cs generalizing behindDigit with
  | nil => rfl
  | cons c cs ih =>
    rw [List.forall_mem_cons] at h
    rw [dropUnderscores?, ih h.2, Option.map_some]
    · rintro d ds rfl -
      exact h.1 rfl
    · rintro rfl -
      exact h.1 rfl

theorem takeDigits_append {ds rest : List Char} (hds : ∀ c ∈ ds, isDigit c = true)
    (hrest : ∀ c ∈ rest.head?, isDigit c = false) : takeDigits (ds ++ rest) = (ds, rest) := by
  have hstop : rest.takeWhile isDigit = [] ∧ rest.dropWhile isDigit = rest := by
    cases rest with
    | nil => exact ⟨rfl, rfl⟩
    | cons c cs => simp [hrest c rfl]
  rw [takeDigits, List.takeWhile_append_of_pos hds, List.dropWhile_append_of_pos hds, hstop.1,
    hstop.2, List.append_nil]

namespace Digits

variable (ds : Digits)

theorem head_isDigit (rest : List Char) : ∃ c ∈ (ds.chars ++ rest).head?, isDigit c = true := by
  obtain ⟨c, cs, hchars⟩ := List.exists_cons_of_ne_nil ds.ne_nil
  exact ⟨c, by simp [hchars], ds.all_isDigit c (by simp [hchars])⟩

theorem isEmpty_chars : ds.chars.isEmpty = false :=
  List.isEmpty_eq_false_iff.mpr ds.ne_nil

theorem all_chars : ds.chars.all isDigit = true :=
  List.all_eq_true.mpr ds.all_isDigit

end Digits

/-- No text that may follow a sign starts with a sign. -/
theorem takeSign_append (s : Sign) {cs : List Char}
    (h : ∃ c ∈ cs.head?, c ≠ '+' ∧ c ≠ '-') : takeSign (s.text ++ cs) = (s.isMinus, cs) := by
  obtain ⟨c, hhead, hplus, hminus⟩ := h
  obtain ⟨rest, rfl⟩ := List.head?_eq_some_iff.mp hhead
  cases s with
  | absent => simp [takeSign, Sign.text, Sign.isMinus, hplus, hminus]
  | plus => rfl
  | minus => rfl

theorem ne_sign_of_isDigit {c : Char} (h : isDigit c = true) : c ≠ '+' ∧ c ≠ '-' :=
  ⟨ne_of_isDigit h (by decide), ne_of_isDigit h (by decide)⟩

theorem exponent?_text (e : Option Exponent) :
    exponent? (e.elim [] Exponent.text) = some (e.elim 0 Exponent.value) := by
  cases e with
  | none => rfl
  | some e =>
    obtain ⟨c, hhead, hc⟩ := e.digits.head_isDigit []
    rw [List.append_nil] at hhead
    have hsign := takeSign_append e.sign ⟨c, hhead, ne_sign_of_isDigit hc⟩
    simp [exponent?, Exponent.text, Exponent.value, hsign, e.digits.isEmpty_chars,
      e.digits.all_chars]

/-- No exponent starts with a digit or a point. -/
theorem head_exponent_text (e : Option Exponent) :
    ∀ c ∈ (e.elim [] Exponent.text).head?, isDigit c = false ∧ c ≠ '.' := by
  intro c hc
  cases e with
  | none => cases hc
  | some e =>
    obtain rfl : (if e.capital then 'E' else 'e') = c := by simpa [Exponent.text] using hc
    cases e.capital <;> exact ⟨by decide, by decide⟩

theorem takeFraction_of_head {cs : List Char} (h : ∀ c ∈ cs.head?, c ≠ '.') :
    takeFraction cs = ([], cs) := by
  unfold takeFraction
  split
  · exact absurd rfl (h '.' rfl)
  · rfl

theorem decimal?_text (n : DecimalNumeral) : decimal? n.text = some n.value := by
  obtain ⟨m, e⟩ := n
  have hexponent := exponent?_text e
  have htail : ∀ c ∈ (e.elim [] Exponent.text).head?, isDigit c = false :=
    fun c hc => (head_exponent_text e c hc).1
  have hpoint : ∀ cs : List Char, ∀ c ∈ ('.' :: cs).head?, isDigit c = false := by
    intro cs c hc
    obtain rfl : '.' = c := by simpa using hc
    decide
  cases m with
  | whole ds =>
    have hnone := takeFraction_of_head fun c hc => (head_exponent_text e c hc).2
    simp [decimal?, DecimalNumeral.text, DecimalNumeral.value, Mantissa.text, Mantissa.front,
      Mantissa.behind, takeDigits_append ds.all_isDigit htail, hnone, ds.isEmpty_chars, hexponent]
  | pointed ds more =>
    have hmore : ∀ c ∈ (Mantissa.pointed ds more).behind, isDigit c = true := by
      cases more with
      | none => simp [Mantissa.behind]
      | some more => exact more.all_isDigit
    have hfront : (Mantissa.pointed ds more).front = ds.chars := rfl
    simp [decimal?, DecimalNumeral.text, DecimalNumeral.value, Mantissa.text, hfront,
      takeDigits_append ds.all_isDigit (hpoint _), takeFraction, takeDigits_append hmore htail,
      ds.isEmpty_chars, hexponent]
  | fraction ds =>
    have hfront : takeDigits ('.' :: (ds.chars ++ e.elim [] Exponent.text)) =
        ([], '.' :: (ds.chars ++ e.elim [] Exponent.text)) :=
      takeDigits_append (List.forall_mem_nil _) (hpoint _)
    simp [decimal?, DecimalNumeral.text, DecimalNumeral.value, Mantissa.text, Mantissa.front,
      Mantissa.behind, hfront, takeFraction, takeDigits_append ds.all_isDigit htail,
      ds.isEmpty_chars, hexponent]

/-- A decimal starts with a digit or with a point. -/
theorem head_decimal_text (n : DecimalNumeral) :
    ∃ c ∈ n.text.head?, isDigit c = true ∨ c = '.' := by
  obtain ⟨m, e⟩ := n
  cases m with
  | whole ds =>
    obtain ⟨c, hhead, hc⟩ := ds.head_isDigit (e.elim [] Exponent.text)
    exact ⟨c, hhead, .inl hc⟩
  | pointed ds more =>
    obtain ⟨c, hhead, hc⟩ := ds.head_isDigit
      ('.' :: (Mantissa.pointed ds more).behind ++ e.elim [] Exponent.text)
    refine ⟨c, ?_, .inl hc⟩
    simpa [DecimalNumeral.text, Mantissa.text, Mantissa.front] using hhead
  | fraction ds => exact ⟨'.', rfl, .inr rfl⟩

/-- No decimal is a name, in whatever case. -/
theorem map_toLower_decimal_text_ne (n : DecimalNumeral) {name : List Char}
    (hname : name.head? = some 'i' ∨ name.head? = some 'n') : n.text.map Char.toLower ≠ name := by
  obtain ⟨c, hhead, hc⟩ := head_decimal_text n
  have hlower : c.toLower ≠ 'i' ∧ c.toLower ≠ 'n' := by
    rcases hc with hc | rfl
    · rw [toLower_of_isDigit hc]
      exact ⟨ne_of_isDigit hc (by decide), ne_of_isDigit hc (by decide)⟩
    · decide
  rintro rfl
  rw [List.head?_map, Option.mem_def.mp hhead, Option.map_some] at hname
  simp [hlower] at hname

/-- What is behind a sign starts with no sign. -/
theorem head_unsigned_text (u : Unsigned) : ∃ c ∈ u.text.head?, c ≠ '+' ∧ c ≠ '-' := by
  cases u with
  | infinity => exact ⟨'I', rfl, by decide⟩
  | nan => exact ⟨'N', rfl, by decide⟩
  | decimal n =>
    obtain ⟨c, hhead, hc | rfl⟩ := head_decimal_text n
    · exact ⟨c, hhead, ne_sign_of_isDigit hc⟩
    · exact ⟨'.', hhead, by decide⟩

theorem magnitude?_text (negative : Bool) (u : Unsigned) :
    magnitude? negative u.text = some (u.value negative) := by
  simp only [magnitude?]
  cases u with
  | infinity => exact if_pos (.inr (by decide))
  | nan =>
    have hinfinity : ¬ ("NaN".toList.map Char.toLower = "inf".toList ∨
        "NaN".toList.map Char.toLower = "infinity".toList) := by
      decide
    exact (if_neg hinfinity).trans (if_pos (by decide))
  | decimal n =>
    have hinfinity : ¬ (n.text.map Char.toLower = "inf".toList ∨
        n.text.map Char.toLower = "infinity".toList) :=
      not_or.mpr
        ⟨map_toLower_decimal_text_ne n (.inl rfl), map_toLower_decimal_text_ne n (.inl rfl)⟩
    have hnan : n.text.map Char.toLower ≠ "nan".toList := map_toLower_decimal_text_ne n (.inr rfl)
    have hdecimal := congrArg (Option.map fun d : Decimal => ofPlace negative d.place)
      (decimal?_text n)
    exact (if_neg hinfinity).trans ((if_neg hnan).trans hdecimal)

/-- **The text of a numeral is converted to its value.** -/
theorem convert?_text (n : Numeral) : convert? n.text = some n.value := by
  have hplain : ∀ c ∈ n.text, c ≠ '_' :=
    n.forall_text (fun _ hc => ne_of_isDigit hc (by decide))
      fun _ hc heq => absurd (heq ▸ hc) (by decide : '_' ∉ marks)
  have hsign : takeSign n.text = (n.sign.isMinus, n.magnitude.text) :=
    takeSign_append n.sign (head_unsigned_text n.magnitude)
  rw [convert?, n.trimmed_text.trim_self, dropUnderscores?_eq hplain, Option.bind_some, hsign]
  exact magnitude?_text n.sign.isMinus n.magnitude

/-! ### The pattern describes numerals -/

theorem describes_sign : signPattern.Describes fun cs => ∃ s : Sign, s ≠ .absent ∧ s.text = cs := by
  refine (Pattern.describes_one _).congr fun cs => ⟨?_, ?_⟩
  · rintro ⟨c, hc, rfl⟩
    rcases (by simpa using hc : c = '+' ∨ c = '-') with rfl | rfl
    · exact ⟨.plus, nofun, rfl⟩
    · exact ⟨.minus, nofun, rfl⟩
  · rintro ⟨s, hs, rfl⟩
    cases s with
    | absent => exact absurd rfl hs
    | plus => exact ⟨'+', rfl, rfl⟩
    | minus => exact ⟨'-', rfl, rfl⟩

theorem describes_optional_sign :
    (Pattern.optional signPattern).Describes fun cs => ∃ s : Sign, s.text = cs := by
  refine describes_sign.optional.congr fun cs => ⟨?_, ?_⟩
  · rintro (rfl | ⟨s, -, rfl⟩)
    · exact ⟨.absent, rfl⟩
    · exact ⟨s, rfl⟩
  · rintro ⟨s, rfl⟩
    by_cases hs : s = .absent
    · exact .inl (hs ▸ rfl)
    · exact .inr ⟨s, hs, rfl⟩

theorem describes_digits : digitsPattern.Describes fun cs => ∃ ds : Digits, ds.chars = cs := by
  refine ((Pattern.describes_one _).seq (Pattern.describes_many _)).congr fun cs => ⟨?_, ?_⟩
  · rintro ⟨-, more, rfl, ⟨c, hc, rfl⟩, hmore⟩
    exact ⟨⟨c :: more, List.cons_ne_nil _ _, List.forall_mem_cons.mpr ⟨hc, hmore⟩⟩, rfl⟩
  · rintro ⟨ds, rfl⟩
    obtain ⟨c, more, hchars⟩ := List.exists_cons_of_ne_nil ds.ne_nil
    have hall := ds.all_isDigit
    rw [hchars] at hall ⊢
    rw [List.forall_mem_cons] at hall
    exact ⟨[c], more, rfl, ⟨c, hall.1, rfl⟩, hall.2⟩

/-- Without a point, two rows of digits are one. -/
theorem describes_mantissa : mantissaPattern.Describes fun cs => ∃ m : Mantissa, m.text = cs := by
  have hpoint := Pattern.describes_word ['.']
  have hfront := describes_digits.seq (hpoint.optional.seq (Pattern.describes_many isDigit))
  refine (hfront.either (hpoint.seq describes_digits)).congr fun cs => ⟨?_, ?_⟩
  · rintro (⟨-, -, rfl, ⟨ds, rfl⟩, ⟨-, more, rfl, rfl | rfl, hmore⟩⟩ | ⟨-, -, rfl, rfl, ⟨ds, rfl⟩⟩)
    · exact ⟨.whole ⟨ds.chars ++ more, by simp [ds.ne_nil],
        List.forall_mem_append.mpr ⟨ds.all_isDigit, hmore⟩⟩, rfl⟩
    · by_cases hne : more = []
      · exact ⟨.pointed ds none, by rw [hne]; rfl⟩
      · exact ⟨.pointed ds (some ⟨more, hne, hmore⟩), rfl⟩
    · exact ⟨.fraction ds, rfl⟩
  · rintro ⟨ds | ⟨ds, _ | more⟩ | ds, rfl⟩
    · exact .inl ⟨ds.chars, [], List.append_nil _, ⟨ds, rfl⟩, [], [], rfl, .inl rfl,
        List.forall_mem_nil _⟩
    · exact .inl ⟨ds.chars, ['.'], rfl, ⟨ds, rfl⟩, ['.'], [], rfl, .inr rfl,
        List.forall_mem_nil _⟩
    · exact .inl ⟨ds.chars, '.' :: more.chars, rfl, ⟨ds, rfl⟩, ['.'], more.chars, rfl, .inr rfl,
        more.all_isDigit⟩
    · exact .inr ⟨['.'], ds.chars, rfl, rfl, ds, rfl⟩

theorem describes_exponent :
    exponentPattern.Describes fun cs => ∃ e : Exponent, e.text = cs := by
  have hmark := Pattern.describes_one fun c => c = 'e' || c = 'E'
  refine (hmark.seq (describes_optional_sign.seq describes_digits)).congr fun cs => ⟨?_, ?_⟩
  · rintro ⟨-, -, rfl, ⟨c, hc, rfl⟩, -, -, rfl, ⟨s, rfl⟩, ⟨ds, rfl⟩⟩
    rcases (by simpa using hc : c = 'e' ∨ c = 'E') with rfl | rfl
    · exact ⟨⟨false, s, ds⟩, rfl⟩
    · exact ⟨⟨true, s, ds⟩, rfl⟩
  · rintro ⟨⟨capital, s, ds⟩, rfl⟩
    refine ⟨[if capital then 'E' else 'e'], s.text ++ ds.chars, rfl, ⟨_, ?_, rfl⟩, s.text, ds.chars,
      rfl, ⟨s, rfl⟩, ⟨ds, rfl⟩⟩
    cases capital <;> rfl

theorem describes_decimal :
    (Pattern.seq mantissaPattern (.optional exponentPattern)).Describes
      fun cs => ∃ n : DecimalNumeral, n.text = cs := by
  refine (describes_mantissa.seq describes_exponent.optional).congr fun cs => ⟨?_, ?_⟩
  · rintro ⟨-, -, rfl, ⟨m, rfl⟩, rfl | ⟨e, rfl⟩⟩
    · exact ⟨⟨m, none⟩, rfl⟩
    · exact ⟨⟨m, some e⟩, rfl⟩
  · rintro ⟨⟨m, _ | e⟩, rfl⟩
    · exact ⟨m.text, [], rfl, ⟨m, rfl⟩, .inl rfl⟩
    · exact ⟨m.text, e.text, rfl, ⟨m, rfl⟩, .inr ⟨e, rfl⟩⟩

theorem describes_numeral : numeralPattern.Describes fun cs => ∃ n : Numeral, n.text = cs := by
  have hnames := (Pattern.describes_word "Infinity".toList).either
    ((Pattern.describes_word "NaN".toList).either describes_decimal)
  refine (describes_optional_sign.seq hnames).congr fun cs => ⟨?_, ?_⟩
  · rintro ⟨-, -, rfl, ⟨s, rfl⟩, rfl | rfl | ⟨n, rfl⟩⟩
    · exact ⟨⟨s, .infinity⟩, rfl⟩
    · exact ⟨⟨s, .nan⟩, rfl⟩
    · exact ⟨⟨s, .decimal n⟩, rfl⟩
  · rintro ⟨⟨s, u⟩, rfl⟩
    refine ⟨s.text, u.text, rfl, ⟨s, rfl⟩, ?_⟩
    cases u with
    | infinity => exact .inl rfl
    | nan => exact .inr (.inl rfl)
    | decimal n => exact .inr (.inr ⟨n, rfl⟩)

/-- **The pattern takes exactly the texts of numerals.** -/
theorem isNumeral_iff (cs : List Char) : isNumeral cs = true ↔ ∃ n : Numeral, n.text = cs :=
  describes_numeral.fits_iff cs

example :
    (["1.", "-.5e+7", "٣.1", "+NaN"].all fun s => isNumeral s.toList) = true ∧
      (["", ".", "1e", "1_0", "+ 1", "inf"].all fun s => !isNumeral s.toList) = true := by
  decide

/-! ### Both stages -/

/-- What passed the pattern is converted. -/
theorem exists_of_isNumeral {cs : List Char} (h : isNumeral cs = true) :
    ∃ x, convert? cs = some x := by
  obtain ⟨n, rfl⟩ := (isNumeral_iff cs).mp h
  exact ⟨n.value, convert?_text n⟩

/-- **The reader accepts exactly the texts of numerals**, blanks at the ends apart, and answers
with their values. -/
theorem parse?_eq_some_iff {s : String} {x : Float} :
    parse? s = some x ↔ ∃ n : Numeral, n.text = trim s.toList ∧ n.value = x := by
  rw [parse?]
  constructor
  · intro h
    split at h
    · rename_i hnumeral
      obtain ⟨n, hn⟩ := (isNumeral_iff _).mp hnumeral
      rw [← hn, convert?_text, Option.some.injEq] at h
      exact ⟨n, hn, h⟩
    · cases h
  · rintro ⟨n, hn, rfl⟩
    have hnumeral : isNumeral (trim s.toList) = true := (isNumeral_iff _).mpr ⟨n, hn⟩
    rw [if_pos hnumeral, ← hn, convert?_text]

end Number

/-! ### Coercion of texts -/

namespace Builtin

open Number (Numeral)

theorem numberOf_eq_ok_iff {s : String} {x : Float} :
    numberOf s = .ok x ↔ Number.parse? s = some x := by
  unfold numberOf
  split
  · rename_i y hy
    rw [hy, Except.ok.injEq, Option.some.injEq]
  · rename_i hnone
    simp [hnone]

theorem numberOf_eq_error_iff {s : String} :
    numberOf s = .error (.notNumeric (String.ofList (Text.trim s.toList))) ↔
      Number.parse? s = none := by
  unfold numberOf
  split
  · rename_i y hy
    simp [hy]
  · rename_i hnone
    simp [hnone]

/--
**A text is taken for a number exactly if it is a numeral**, apart from the blanks around it,
and then for the number that the numeral stands for.  Any other text is complained about, and
the complaint quotes the text without the blanks around it.  The pattern takes the texts of
numerals and no others, and the conversion never fails on what the pattern took.
-/
theorem numberOf_accepts_numerals (s : String) :
    ∃ before text after, Text.AllBlank before ∧ Text.Trimmed text ∧ Text.AllBlank after ∧
      s.toList = before ++ text ++ after ∧ text = Text.trim s.toList ∧
      (∀ x, numberOf s = .ok x ↔ ∃ n : Numeral, n.text = text ∧ n.value = x) ∧
      (Number.isNumeric s = true ↔ ∃ n : Numeral, n.text = text) ∧
      ((¬ ∃ n : Numeral, n.text = text) ↔
        ∃ fault, numberOf s = .error fault ∧ fault.kind = "ValueError" ∧
          fault.message = "could not convert string to float: " ++
            Text.quoted (String.ofList text)) ∧
      (∀ cs, Number.isNumeral cs = true ↔ ∃ n : Numeral, n.text = cs) ∧
      (∀ cs, Number.isNumeral cs = true → ∃ x, Number.convert? cs = some x) := by
  have haccepted : (∃ x, Number.parse? s = some x) ↔
      ∃ n : Numeral, n.text = Text.trim s.toList := by
    simp only [Number.parse?_eq_some_iff]
    exact ⟨fun ⟨_, n, hn, _⟩ => ⟨n, hn⟩, fun ⟨n, hn⟩ => ⟨_, n, hn, rfl⟩⟩
  obtain ⟨before, after, hbefore, hafter, hs⟩ := Text.exists_trim s.toList
  refine ⟨before, Text.trim s.toList, after, hbefore, Text.trimmed_trim _, hafter, hs, rfl,
    fun x => numberOf_eq_ok_iff.trans Number.parse?_eq_some_iff, ?_, ?_, Number.isNumeral_iff,
    fun cs => Number.exists_of_isNumeral⟩
  · rw [Number.isNumeric, Option.isSome_iff_exists, haccepted]
  · rw [← haccepted]
    constructor
    · intro hnone
      have hparse : Number.parse? s = none :=
        Option.eq_none_iff_forall_ne_some.mpr fun x hx => hnone ⟨x, hx⟩
      exact ⟨_, numberOf_eq_error_iff.mpr hparse, rfl, rfl⟩
    · rintro ⟨fault, hfault, -⟩ ⟨x, hx⟩
      rw [numberOf_eq_ok_iff.mpr hx] at hfault
      cases hfault

end Builtin

end Eel
