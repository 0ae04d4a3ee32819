/-
Everything that is said stays on one line.

A log is read line by line, so no entry may break the line it stands on.  Line feeds could
come in from many sides: the words of a program, the texts of variables, the values of
commands that come back as words, and the reports of faults, which quote the words they
complain about.  The words of a line have none to begin with, and no built-in command makes
one.  Numbers are written with digits, points, signs and letters; what is quoted has its line
feeds escaped; everything else is put together from words.

`Command.KeepsLines` is what the handlers keep to, as long as they are given words without
line feeds.  `oneLine_evaluate` hands it on to evaluations, in an environment that has no line
feeds either.
-/
import Eel.Builtin.Catalogue
import Eel.Proofs.Steps

namespace Eel

/-! ### Texts without line feeds -/

namespace Text

/-- The text has no line feed. -/
def OneLine (s : String) : Prop := '\n' ∉ s.toList

instance (s : String) : Decidable (OneLine s) := inferInstanceAs (Decidable (¬ _))

@[simp] theorem oneLine_append {a b : String} : OneLine (a ++ b) ↔ OneLine a ∧ OneLine b := by
  simp [OneLine]

@[simp] theorem oneLine_ofList {cs : List Char} : OneLine (String.ofList cs) ↔ '\n' ∉ cs := by
  simp [OneLine]

theorem mem_join {sep : List Char} {c : Char} :
    ∀ {ps : List (List Char)}, c ∈ join sep ps → c ∈ sep ∨ ∃ p ∈ ps, c ∈ p := by
  intro ps
  induction ps with
  | nil =>
    intro h
    cases h
  | cons p ps ih =>
    intro h
    by_cases hne : ps = []
    · subst hne
      exact .inr ⟨p, by simp, h⟩
    · rw [join_cons_of_ne_nil _ _ hne, List.mem_append, List.mem_append] at h
      rcases h with (h | h) | h
      · exact .inr ⟨p, by simp, h⟩
      · exact .inl h
      · rcases ih h with h | ⟨q, hq, h⟩
        · exact .inl h
        · exact .inr ⟨q, by simp [hq], h⟩

theorem oneLine_joinWith {sep : String} {ws : List String} (hsep : OneLine sep)
    (hws : ∀ w ∈ ws, OneLine w) : OneLine (joinWith sep ws) := by
  rw [joinWith, oneLine_ofList]
  intro h
  rcases mem_join h with h | ⟨p, hp, h⟩
  · exact hsep h
  · obtain ⟨w, hw, rfl⟩ := List.mem_map.mp hp
    exact hws w hw h

/-! ### Quoted texts -/

theorem newline_not_mem_hexDigits (width : Nat) : ∀ n : Nat, '\n' ∉ hexDigits width n := by
  have hdigit : ∀ d < 16, Nat.digitChar d ≠ '\n' := by decide
  induction width with
  | zero =>
    intro n
    simp [hexDigits]
  | succ width ih =>
    intro n
    have hlast := hdigit (n % 16) (Nat.mod_lt n (by decide))
    simp [hexDigits, ih, hlast.symm]

theorem newline_not_mem_escape {quote : Char} (hquote : quote ≠ '\n') (c : Char) :
    '\n' ∉ escape quote c := by
  by_cases hc : c = '\n'
  · subst hc
    simp [escape, hquote.symm]
  · unfold escape
    repeat' split
    all_goals simp [newline_not_mem_hexDigits, Ne.symm hc]

/-- A quoted text has no line feed, whatever is quoted. -/
theorem oneLine_quoted (s : String) : OneLine (quoted s) := by
  have hquote : quoteFor s.toList ≠ '\n' := by
    unfold quoteFor
    split <;> decide
  rw [quoted, oneLine_ofList, List.mem_cons, List.mem_append, List.mem_flatMap,
    List.mem_singleton]
  rintro (h | ⟨c, -, h⟩ | h)
  · exact hquote h.symm
  · exact newline_not_mem_escape hquote c h
  · exact hquote h.symm

/-! ### Counts -/

theorem not_mem_toString_nat {c : Char} (hc : c.isDigit = false) (n : Nat) :
    c ∉ (toString n).toList := by
  rw [Nat.toString_eq_ofList_toDigits, String.toList_ofList]
  intro h
  have hdigit := Nat.isDigit_of_mem_toDigits (by decide) (by decide) h
  rw [hc] at hdigit
  cases hdigit

theorem not_mem_toString_int {c : Char} (hc : c.isDigit = false) (hminus : c ≠ '-') (n : Int) :
    c ∉ (toString n).toList := by
  cases n with
  | ofNat n => exact not_mem_toString_nat hc n
  | negSucc n =>
    have hdigits : c ∉ ("-" ++ toString (n + 1)).toList := by
      simpa [hminus] using not_mem_toString_nat hc (n + 1)
    exact hdigits

theorem oneLine_toString_nat (n : Nat) : OneLine (toString n) :=
  not_mem_toString_nat (by decide) n

theorem oneLine_toString_int (n : Int) : OneLine (toString n) :=
  not_mem_toString_int (by decide) (by decide) n

end Text

open Text (OneLine)

/-! ### Numbers -/

namespace Number

theorem newline_not_mem_natText (n : Nat) : '\n' ∉ natText n := by
  have htext : natText n = (toString n).toList := by
    rw [Nat.toString_eq_ofList_toDigits, String.toList_ofList]
    rfl
  rw [htext]
  exact Text.not_mem_toString_nat (by decide) n

theorem newline_not_mem_positional {l : Layout} (hmark : '\n' ∉ l.wholeMark) {ds : List Char}
    (hds : '\n' ∉ ds) (exponent : Int) : '\n' ∉ l.positional ds exponent := by
  unfold Layout.positional
  split
  · simp [hds, hmark]
  · simp only
    split
    · rw [List.mem_append, List.mem_cons]
      rintro (h | h | h)
      · exact hds (List.mem_of_mem_take h)
      · cases h
      · exact hds (List.mem_of_mem_drop h)
    · simpa using hds

theorem newline_not_mem_exponential (l : Layout) {ds : List Char} (hds : '\n' ∉ ds)
    (leading : Int) : '\n' ∉ l.exponential ds leading := by
  have hsign : '\n' ≠ if leading < 0 then '-' else '+' := by
    split <;> decide
  simp only [Layout.exponential, List.mem_append, List.mem_cons]
  rintro (h | h | h | h | h)
  · split at h
    · simp_all
    · exact hds h
  · cases h
  · exact hsign h
  · simp at h
  · exact newline_not_mem_natText _ h

theorem newline_not_mem_write {l : Layout} (hmark : '\n' ∉ l.wholeMark) (d : Decimal) :
    '\n' ∉ l.write d := by
  have hdigits := newline_not_mem_natText d.digits
  unfold Layout.write
  simp only
  split
  · exact newline_not_mem_positional hmark hdigits _
  · exact newline_not_mem_exponential l hdigits _

theorem newline_not_mem_signed (negative : Bool) {cs : List Char} (h : '\n' ∉ cs) :
    '\n' ∉ signed negative cs := by
  unfold signed
  split
  · simpa using h
  · exact h

theorem oneLine_text (x : Float) : OneLine (text x) := by
  unfold text
  split
  · decide
  split
  · split <;> decide
  split
  · exact Text.oneLine_ofList.mpr (newline_not_mem_signed _ (newline_not_mem_natText _))
  · exact Text.oneLine_ofList.mpr (newline_not_mem_signed _ (newline_not_mem_write (by decide) _))

end Number

/-! ### Variables -/

namespace Bindings

/-- The texts of all names are without line feeds. -/
def OneLine (b : Bindings) : Prop := ∀ p ∈ b.entries, Text.OneLine p.2

theorem mem_put {name value : String} {p : String × String} :
    ∀ {ps : List (String × String)}, p ∈ put name value ps → p = (name, value) ∨ p ∈ ps := by
  intro ps
  induction ps with
  | nil =>
    intro h
    exact .inl (List.mem_singleton.mp h)
  | cons q rest ih =>
    intro h
    obtain ⟨n, v⟩ := q
    by_cases hn : n = name
    · rw [put, if_pos hn, List.mem_cons] at h
      rcases h with rfl | h
      · exact .inl (by rw [hn])
      · exact .inr (by simp [h])
    · rw [put, if_neg hn, List.mem_cons] at h
      rcases h with rfl | h
      · exact .inr (by simp)
      · exact (ih h).imp_right (List.mem_cons_of_mem _)

theorem oneLine_empty : OneLine ∅ := by
  intro p hp
  cases hp

theorem OneLine.insert {b : Bindings} (hb : b.OneLine) (name : String) {value : String}
    (hvalue : Text.OneLine value) : (b.insert name value).OneLine := by
  intro p hp
  rcases mem_put hp with rfl | hp
  · exact hvalue
  · exact hb p hp

theorem OneLine.insertAll {ps : List (String × String)} (hps : ∀ p ∈ ps, Text.OneLine p.2) :
    ∀ {b : Bindings}, b.OneLine → (b.insertAll ps).OneLine := by
  induction ps with
  | nil =>
    intro b hb
    exact hb
  | cons p rest ih =>
    intro b hb
    exact ih (fun q hq => hps q (by simp [hq])) (hb.insert p.1 (hps p (by simp)))

theorem OneLine.merge {a b : Bindings} (ha : a.OneLine) (hb : b.OneLine) : (a.merge b).OneLine :=
  OneLine.insertAll hb ha

theorem OneLine.get? {b : Bindings} (hb : b.OneLine) {name value : String}
    (h : b.get? name = some value) : Text.OneLine value := by
  obtain ⟨l₁, l₂, hentries, -⟩ := List.lookup_eq_some_iff.mp h
  exact hb (name, value) (by simp [hentries])

end Bindings

theorem Environment.oneLine_initial : Bindings.OneLine initial := by
  have hentries : ∀ p ∈ initial.entries, Text.OneLine p.2 := by decide +kernel
  exact hentries

/-- Characters after substitution come from the text or from the text of a variable. -/
theorem Substitution.mem_scan {env : Environment} {c : Char} (fresh : Bool) (cs : List Char)
    (h : c ∈ scan env fresh cs) :
    c ∈ cs ∨ ∃ name value, env.get? name = some value ∧ c ∈ value.toList := by
  fun_induction scan env fresh cs with
  | case1 => cases h
  | case2 fresh d rest hd hnone ih =>
    rcases List.mem_cons.mp h with rfl | h
    · exact .inl (by simp)
    · exact (ih h).imp_left (List.mem_cons_of_mem _)
  | case3 fresh d rest hd hname ih =>
    rcases List.mem_append.mp h with h | h
    · unfold resolve at h
      split at h
      · rename_i value hvalue
        exact .inr ⟨_, value, hvalue, h⟩
      · rcases List.mem_cons.mp h with rfl | h
        · simp_all
        · exact .inl (List.mem_cons_of_mem _ ((List.takeWhile_sublist _).mem h))
    · refine (ih h).imp_left fun h => List.mem_cons_of_mem _ ?_
      exact (List.dropWhile_sublist _).mem h
  | case4 fresh d rest hd ih =>
    rcases List.mem_cons.mp h with rfl | h
    · exact .inl (by simp)
    · exact (ih h).imp_left (List.mem_cons_of_mem _)

theorem oneLine_substitute {env : Environment} (henv : env.OneLine) {w : String}
    (hw : OneLine w) : OneLine (substitute env w) := by
  rw [substitute, Text.oneLine_ofList]
  intro h
  rcases Substitution.mem_scan true w.toList h with h | ⟨name, value, hvalue, h⟩
  · exact hw h
  · exact henv.get? hvalue h

/-! ### Results -/

section

variable {α β : Type} {P : α → Prop} {Q : β → Prop} {F : Fault → Prop}

@[simp] theorem endsIn_ok {a : α} : EndsIn P F (.ok a) ↔ P a := by
  refine ⟨fun h => ?_, .ok⟩
  cases h with
  | ok h => exact h

@[simp] theorem endsIn_error {fault : Fault} : EndsIn P F (.error fault) ↔ F fault := by
  refine ⟨fun h => ?_, .error⟩
  cases h with
  | error h => exact h

theorem EndsIn.bind {x : Except Fault α} {f : α → Except Fault β} (hx : EndsIn P F x)
    (hf : ∀ a, P a → EndsIn Q F (f a)) : EndsIn Q F (x >>= f) := by
  cases hx with
  | ok h => exact hf _ h
  | error h => exact .error h

theorem EndsIn.map {x : Except Fault α} {f : α → β} (hx : EndsIn P F x)
    (hf : ∀ a, P a → Q (f a)) : EndsIn Q F (x.map f) := by
  cases hx with
  | ok h => exact .ok (hf _ h)
  | error h => exact .error h

end

/-! ### Faults -/

namespace Fault

/-- The texts that the report of the fault holds as they are. -/
def verbatim : Fault → List String
  | pairExpected function _ | choiceExpected function | argumentMissing function
  | singleExpected function => [function]
  | other kind message => [kind, message]
  | _ => []

/-- The texts that the report holds as they are, are without line feeds. -/
def OneLine (fault : Fault) : Prop := ∀ text ∈ fault.verbatim, Text.OneLine text

theorem oneLine_of_nil {fault : Fault} (h : fault.verbatim = []) : fault.OneLine := by
  simp [OneLine, h]

@[simp] theorem oneLine_pairExpected {function : String} {given : Nat} :
    (pairExpected function given).OneLine ↔ Text.OneLine function := by
  simp [OneLine, verbatim]

@[simp] theorem oneLine_choiceExpected {function : String} :
    (choiceExpected function).OneLine ↔ Text.OneLine function := by
  simp [OneLine, verbatim]

@[simp] theorem oneLine_argumentMissing {function : String} :
    (argumentMissing function).OneLine ↔ Text.OneLine function := by
  simp [OneLine, verbatim]

@[simp] theorem oneLine_singleExpected {function : String} :
    (singleExpected function).OneLine ↔ Text.OneLine function := by
  simp [OneLine, verbatim]

theorem OneLine.message {fault : Fault} (h : fault.OneLine) : Text.OneLine fault.message := by
  have hnat : ∀ n : Nat, Text.OneLine n.repr := Text.oneLine_toString_nat
  have hint : ∀ n : Int, Text.OneLine n.repr := Text.oneLine_toString_int
  cases fault <;> unfold Fault.message
  all_goals simp_all [OneLine, verbatim, Text.oneLine_quoted]
  case operandsMissing =>
    exact ⟨Text.oneLine_ofList.mpr (by decide), Text.oneLine_ofList.mpr (by decide)⟩
  all_goals exact Text.oneLine_ofList.mpr (by decide)

/-- Line feeds in what a fault complains about are escaped. -/
theorem OneLine.report {fault : Fault} (h : fault.OneLine) : Text.OneLine fault.report := by
  have hkind : Text.OneLine fault.kind := by
    cases fault
    case other kind message => exact h kind List.mem_cons_self
    all_goals simp [kind, Text.OneLine]
  rw [Fault.report, Text.oneLine_append, Text.oneLine_append]
  exact ⟨⟨hkind, by simp [Text.OneLine]⟩, h.message⟩

end Fault

/-- What came out has `P`, and the report of a fault is without line feeds. -/
abbrev Keeps {α : Type} (P : α → Prop) : Except Fault α → Prop := EndsIn P Fault.OneLine

/-- The report of a fault is without line feeds; what came out may be anything. -/
abbrev KeepsFault {α : Type} : Except Fault α → Prop := Keeps fun _ => True

/-- Value, entries and writes are without line feeds. -/
structure Outcome.OneLine (o : Outcome) : Prop where
  value : Text.OneLine o.value
  log : ∀ e ∈ o.log, ∀ text ∈ e.text, Text.OneLine text
  writes : o.writes.OneLine

namespace Outcome

theorem oneLine_ofValue {value : String} (h : Text.OneLine value) : (ofValue value).OneLine :=
  ⟨h, by simp [ofValue], Bindings.oneLine_empty⟩

theorem oneLine_say (kind : Kind) {text : String} (h : Text.OneLine text) (halt : Bool) :
    (say kind text halt).OneLine :=
  ⟨(by decide : Text.OneLine "true"), by simpa [say] using h, Bindings.oneLine_empty⟩

theorem oneLine_default : OneLine {} := ⟨by decide, by simp, Bindings.oneLine_empty⟩

theorem OneLine.append {a b : Outcome} (ha : a.OneLine) (hb : b.OneLine) :
    (a.append b).OneLine := by
  refine ⟨hb.value, ?_, ha.writes.merge hb.writes⟩
  intro e he
  rcases List.mem_append.mp he with he | he
  · exact ha.log e he
  · exact hb.log e he

end Outcome

/-- Given words without line feeds, the command's handler answers without line feeds. -/
def Command.KeepsLines (c : Command) : Prop :=
  ∀ chance params, (∀ p ∈ params, OneLine p) → Keeps Outcome.OneLine (c.handler chance params)

/-! ### The built-in commands -/

namespace Builtin

theorem keepsFault_numberOf (s : String) : KeepsFault (numberOf s) := by
  unfold numberOf
  split
  · exact .ok trivial
  · exact .error (Fault.oneLine_of_nil rfl)

theorem keepsFault_mapM_numberOf (ws : List String) : KeepsFault (ws.mapM numberOf) := by
  induction ws with
  | nil => exact .ok trivial
  | cons w ws ih =>
    rw [List.mapM_cons]
    exact (keepsFault_numberOf w).bind fun x _ => ih.bind fun xs _ => .ok trivial

theorem keeps_numberOutcome {x : Except Fault Float} (hx : KeepsFault x) :
    Keeps Outcome.OneLine (do return numberOutcome (← x)) :=
  hx.bind fun y _ => .ok (Outcome.oneLine_ofValue (Number.oneLine_text y))

theorem keepsLines_ofNumber (name : String) {shortage : Fault} {f : Float → Except Fault Float}
    (hshortage : shortage.OneLine) (hf : ∀ x, KeepsFault (f x)) :
    (ofNumber name shortage f).KeepsLines := by
  intro chance params _
  refine (keepsFault_mapM_numberOf (params.take 1)).bind fun xs _ => ?_
  match xs with
  | [] => exact .error hshortage
  | x :: _ => exact keeps_numberOutcome (hf x)

theorem keepsLines_ofNumbers (name : String) {shortage : Nat → Fault}
    {f : Float → Float → Except Fault Float} (hshortage : ∀ n, (shortage n).OneLine)
    (hf : ∀ x y, KeepsFault (f x y)) : (ofNumbers name shortage f).KeepsLines := by
  intro chance params _
  refine (keepsFault_mapM_numberOf (params.take 2)).bind fun xs _ => ?_
  match xs with
  | [] => exact .error (hshortage _)
  | [x] => exact .error (hshortage _)
  | x :: y :: _ => exact keeps_numberOutcome (hf x y)

theorem keepsFault_checked (grows : Bool) (f : Float → Float) (x : Float) :
    KeepsFault (Number.checked grows f x) := by
  unfold Number.checked
  simp only
  split
  · exact .error (Fault.oneLine_of_nil rfl)
  split
  · cases grows
    · exact .error (Fault.oneLine_of_nil rfl)
    · exact .error (Fault.oneLine_of_nil rfl)
  · exact .ok trivial

theorem keepsFault_divide (x y : Float) : KeepsFault (Number.divide x y) := by
  unfold Number.divide
  split
  · exact .error (Fault.oneLine_of_nil rfl)
  · exact .ok trivial

theorem keepsFault_power (x y : Float) : KeepsFault (Number.power x y) := by
  unfold Number.power
  simp only
  split
  · exact .ok trivial
  split
  · exact .error (Fault.oneLine_of_nil rfl)
  split
  · split
    · exact .error (Fault.oneLine_of_nil rfl)
    · exact .error (Fault.oneLine_of_nil rfl)
  · exact .ok trivial

theorem keepsFault_remainder (x y : Float) : KeepsFault (Number.remainder x y) := by
  unfold Number.remainder
  split
  · exact .ok trivial
  split
  · exact .error (Fault.oneLine_of_nil rfl)
  split <;> exact .ok trivial

theorem keepsFault_whole (f : Float → Int) (x : Float) : KeepsFault (Number.whole f x) := by
  unfold Number.whole
  split
  · exact .error (Fault.oneLine_of_nil rfl)
  split
  · exact .error (Fault.oneLine_of_nil rfl)
  · exact .ok trivial

theorem keepsLines_numeric : ∀ c ∈ numeric, c.KeepsLines := by
  have hceil : ∀ x, KeepsFault (Number.ceil x) := keepsFault_whole Number.ceilInt
  have hfloor : ∀ x, KeepsFault (Number.floor x) := keepsFault_whole Number.floorInt
  have hround : ∀ x, KeepsFault (Number.round x) := fun x => hfloor (x + 0.5)
  have hchoice : ∀ name, Text.OneLine name → ∀ given, (choiceShortage name given).OneLine := by
    intro name hname given
    unfold choiceShortage
    split
    · simpa using hname
    · exact Fault.oneLine_of_nil rfl
  have hmin := hchoice "min" (by decide)
  have hmax := hchoice "max" (by decide)
  have hlog : Fault.OneLine .logarithmOfNothing := Fault.oneLine_of_nil rfl
  simp [numeric, elementary, keepsLines_ofNumber, keepsLines_ofNumbers, hceil, hfloor, hround,
    hmin, hmax, hlog, keepsFault_divide, keepsFault_power, keepsFault_remainder,
    keepsFault_checked, OneLine]

theorem oneLine_truthText (b : Bool) : OneLine (truthText b) := by
  cases b <;> simp [truthText, OneLine]

theorem keepsLines_unary (name : String) {f : String → Except Fault String}
    (hf : ∀ a, OneLine a → Keeps OneLine (f a)) : (unary name f).KeepsLines := by
  intro chance params hparams
  match params with
  | [] => exact .error (Fault.oneLine_of_nil rfl)
  | a :: more => exact (hf a (hparams a (by simp))).map fun _ => Outcome.oneLine_ofValue

theorem keepsLines_binary (name : String) {f : String → String → String}
    (hf : ∀ a b, OneLine a → OneLine b → OneLine (f a b)) : (binary name f).KeepsLines := by
  intro chance params hparams
  match params with
  | [] | [_] => exact .error (Fault.oneLine_of_nil rfl)
  | a :: b :: more =>
    exact .ok (Outcome.oneLine_ofValue (hf a b (hparams a (by simp)) (hparams b (by simp))))

theorem oneLine_both {a b : String} (ha : OneLine a) (hb : OneLine b) : OneLine (both a b) := by
  unfold both
  split
  · exact hb
  · exact ha

theorem oneLine_either {a b : String} (ha : OneLine a) (hb : OneLine b) :
    OneLine (either a b) := by
  unfold either
  split
  · exact ha
  · exact hb

theorem keepsLines_textual : ∀ c ∈ textual, c.KeepsLines := by
  have hnumber : ∀ a, Keeps OneLine ((numberOf a).map Number.text) :=
    fun a => (keepsFault_numberOf a).map fun x _ => Number.oneLine_text x
  have hlength : ∀ a : String, OneLine a.length.repr :=
    fun a => Text.oneLine_toString_nat a.length
  have hrandom : Command.KeepsLines
      { name := "random", arity := some 0, handler := drawNumber } :=
    fun chance _ _ => .ok (Outcome.oneLine_ofValue (Number.oneLine_text chance.unit))
  simp +contextual [textual, keepsLines_unary, keepsLines_binary, oneLine_truthText,
    oneLine_both, oneLine_either, hnumber, hlength, hrandom]

theorem keepsLines_between (glyph : String) {f : String → String → Except Fault String}
    (hf : ∀ a b, OneLine a → OneLine b → Keeps OneLine (f a b)) : (between glyph f).KeepsLines := by
  intro chance params hparams
  match params with
  | [] | [_] => exact .error (Fault.oneLine_of_nil rfl)
  | a :: b :: more =>
    exact (hf a b (hparams a (by simp)) (hparams b (by simp))).map fun _ => Outcome.oneLine_ofValue

theorem keepsLines_betweenNumbers (glyph : String) {f : Float → Float → Except Fault Float}
    (hf : ∀ x y, KeepsFault (f x y)) : (betweenNumbers glyph f).KeepsLines := by
  refine keepsLines_between glyph fun a b _ _ => ?_
  refine (keepsFault_numberOf a).bind fun x _ => (keepsFault_numberOf b).bind fun y _ => ?_
  exact (hf x y).bind fun z _ => .ok (Number.oneLine_text z)

theorem keepsLines_operators : ∀ c ∈ operators, c.KeepsLines := by
  simp +contextual [operators, betweenTexts, keepsLines_betweenNumbers, keepsLines_between,
    keepsFault_power, oneLine_truthText, oneLine_both, oneLine_either]

theorem keepsLines_logging (name : String) (kind : Kind) (halt : Bool) :
    (logging name kind halt).KeepsLines := by
  intro chance params hparams
  have hwords : OneLine (Text.joinWith " " params) :=
    Text.oneLine_joinWith (by decide) hparams
  exact .ok (Outcome.oneLine_say kind hwords halt)

theorem keepsLines_set : Command.KeepsLines { name := "set", handler := setVariable } := by
  intro chance params hparams
  have hhead : OneLine (params.headD "") := by
    cases params with
    | nil => decide
    | cons p ps => exact hparams p (by simp)
  have hvalue : OneLine (Text.joinWith " " params.tail) :=
    Text.oneLine_joinWith (by decide) fun p hp => hparams p (List.mem_of_mem_tail hp)
  have hwrites := Bindings.oneLine_empty.insert (params.headD "") hvalue
  unfold setVariable
  simp only
  split
  · exact .ok ⟨hvalue, by simp, hwrites⟩
  · have hopening : OneLine ("Invalid variable name \"" ++ params.headD "") :=
      Text.oneLine_append.mpr ⟨by decide, hhead⟩
    exact .ok (Outcome.oneLine_say _ (Text.oneLine_append.mpr ⟨hopening, by decide⟩) _)

theorem keepsLines_marker (glyph : String) : (marker glyph).KeepsLines :=
  fun _ _ _ => .ok ⟨by simp [OneLine], by simp, Bindings.oneLine_empty⟩

/-- **Every built-in command keeps to one line.** -/
theorem keepsLines_of_mem_commands : ∀ c ∈ commands, c.KeepsLines := by
  have hspeech : ∀ c ∈ speech, c.KeepsLines := by
    simp [speech, keepsLines_logging, keepsLines_set]
  have hmarkers : ∀ c ∈ markers, c.KeepsLines := by
    simp [markers, keepsLines_marker]
  intro c hc
  simp only [commands, List.mem_append] at hc
  rcases hc with (((hc | hc) | hc) | hc) | hc
  · exact hspeech c hc
  · exact keepsLines_numeric c hc
  · exact keepsLines_textual c hc
  · exact keepsLines_operators c hc
  · exact hmarkers c hc

end Builtin

theorem oneLine_commandNotFound {name : String} (hname : OneLine name) :
    (commandNotFound name).OneLine := by
  have hopening : OneLine ("Command \"" ++ name) := Text.oneLine_append.mpr ⟨by decide, hname⟩
  exact Outcome.oneLine_say _ (Text.oneLine_append.mpr ⟨hopening, by decide⟩) _

/--
**An evaluation keeps to one line**: with a name, words and an environment without line feeds,
its value, its entries, its writes and the report of its fault are without line feeds.
-/
theorem oneLine_evaluate {env : Environment} (henv : env.OneLine) (nesting : Nat)
    (chance : Chance) {name : String} (hname : OneLine name) {words : List String}
    (hwords : ∀ w ∈ words, OneLine w) :
    Keeps Outcome.OneLine
      (evaluate Builtin.registry env nesting chance name (words.map .word)).result := by
  refine evaluate_endsIn (W := OneLine) env (fun _ => oneLine_substitute henv)
    (fun _ ho => ho.value) Outcome.oneLine_default (fun _ _ => Outcome.OneLine.append)
    (fun _ => oneLine_commandNotFound) (Fault.oneLine_of_nil rfl)
    Builtin.keepsLines_of_mem_commands nesting chance name _ (fun _ => hname) ?_
  simpa using hwords

end Eel
