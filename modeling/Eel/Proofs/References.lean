/-
References are replaced run by run.

The pass over a text carries a flag along, which says whether a reference may start, and jumps
over the names that it reads.  Seen from outside it does something simpler.  A text falls into
runs, blank and not blank by turns.  A blank run stays, and of any other run only a reference at
its very start is replaced, whatever stands around the run.

That works because a name never reaches beyond its run, as no blank belongs into a name, and
because the flag is raised by a blank and lowered by anything else.
-/
import Eel.Substitution
import Mathlib.Data.List.Chain

namespace Eel

/-! ### Runs -/

/-- A row of one or more characters, all of them blank or none of them. -/
structure Run where
  chars : List Char
  blank : Bool
  ne_nil : chars ≠ []
  uniform : ∀ c ∈ chars, Text.isBlank c = blank

namespace Run

/-- A single character. -/
def single (c : Char) : Run := ⟨[c], Text.isBlank c, by simp, by simp⟩

/-- A character in front of some runs; it joins the first of them if it can. -/
def push (c : Char) : List Run → List Run
  | [] => [single c]
  | r :: rs =>
    if h : Text.isBlank c = r.blank then
      ⟨c :: r.chars, r.blank, by simp, by simpa [h] using r.uniform⟩ :: rs
    else single c :: r :: rs

/-- The runs of a text. -/
def cut (cs : List Char) : List Run := cs.foldr push []

/-- Neighbouring runs are of different kinds, so that no run can be made longer. -/
def Alternate (rs : List Run) : Prop := rs.IsChain fun a b => a.blank ≠ b.blank

theorem flatMap_chars_push (c : Char) (rs : List Run) :
    (push c rs).flatMap chars = c :: rs.flatMap chars := by
  unfold push
  split
  · rfl
  · split <;> rfl

/-- The runs of a text are all of it, in order. -/
theorem flatMap_chars_cut (cs : List Char) : (cut cs).flatMap chars = cs := by
  induction cs with
  | nil => rfl
  | cons c cs ih =>
    change (push c (cut cs)).flatMap chars = c :: cs
    rw [flatMap_chars_push, ih]

theorem alternate_push (c : Char) {rs : List Run} (h : Alternate rs) : Alternate (push c rs) := by
  unfold push
  split
  · exact List.isChain_singleton _
  · rename_i r rs
    split
    · cases rs with
      | nil => exact List.isChain_singleton _
      | cons r' rs => exact List.isChain_cons_cons.mpr (List.isChain_cons_cons.mp h)
    · rename_i hother
      exact List.isChain_cons_cons.mpr ⟨hother, h⟩

theorem alternate_cut (cs : List Char) : Alternate (cut cs) := by
  induction cs with
  | nil => exact List.isChain_nil
  | cons c cs ih => exact alternate_push c ih

end Run

/-! ### The pass over one run

Nothing that stands before a blank looks beyond it, and a blank makes the pass forget what stood
before.
-/

namespace Substitution

/-- No blank belongs into a name. -/
theorem isReferenceChar_of_isBlank {c : Char} (h : Text.isBlank c = true) :
    isReferenceChar c = false := by
  have htable : ∀ n ∈ List.range' 0x09 5 ++ List.range' 0x1C 5 ++ [0x85, 0xA0, 0x1680]
      ++ List.range' 0x2000 11 ++ [0x2028, 0x2029, 0x202F, 0x205F, 0x3000],
      isReferenceChar (Char.ofNat n) = false := by
    decide +kernel
  rw [← Char.ofNat_toNat c]
  apply htable
  simp only [Text.isBlank, Bool.or_eq_true, Bool.and_eq_true, decide_eq_true_eq, beq_iff_eq,
    or_assoc] at h
  simp only [List.mem_append, List.mem_range'_1, List.mem_cons, List.not_mem_nil, or_assoc]
  rcases h with h | h | h | h | h | h | h | h | h | h | h
  all_goals omega

variable (env : Environment)

theorem scan_nil (fresh : Bool) : scan env fresh [] = [] := by
  rw [scan]

/-- A character at which no reference starts stays. -/
theorem scan_cons {fresh : Bool} {c : Char} (h : (fresh && c == '-') = false) (cs : List Char) :
    scan env fresh (c :: cs) = c :: scan env (Text.isBlank c) cs := by
  rw [scan, h]
  rfl

/-- A dash without a name stays. -/
theorem scan_lone {fresh : Bool} {c : Char} (h : (fresh && c == '-') = true) {cs : List Char}
    (hname : cs.takeWhile isReferenceChar = []) :
    scan env fresh (c :: cs) = c :: scan env false cs := by
  rw [scan, if_pos h, hname]

/-- A dash with a name is resolved, and the pass goes on behind the name. -/
theorem scan_name {fresh : Bool} {c : Char} (h : (fresh && c == '-') = true) {cs : List Char}
    (hname : cs.takeWhile isReferenceChar ≠ []) :
    scan env fresh (c :: cs) = resolve env (cs.takeWhile isReferenceChar) ++
      scan env false (cs.dropWhile isReferenceChar) := by
  rw [scan, if_pos h]
  generalize cs.takeWhile isReferenceChar = name at hname
  cases name with
  | nil => exact absurd rfl hname
  | cons _ _ => rfl

/-- What stands behind a blank is passed over as if nothing stood before it. -/
theorem scan_blank_cons (fresh : Bool) {c : Char} (h : Text.isBlank c = true) (cs : List Char) :
    scan env fresh (c :: cs) = c :: scan env true cs := by
  have hdash : (c == '-') = false := by
    simpa [isReferenceChar] using (Bool.or_eq_false_iff.mp (isReferenceChar_of_isBlank h)).2
  rw [scan_cons env (by simp [hdash]), h]

/-- Blanks stay, and behind them the pass starts afresh. -/
theorem scan_blanks (fresh : Bool) {s : List Char} (hne : s ≠ [])
    (hs : ∀ c ∈ s, Text.isBlank c = true) (v : List Char) :
    scan env fresh (s ++ v) = s ++ scan env true v := by
  induction s generalizing fresh with
  | nil => exact absurd rfl hne
  | cons c s ih =>
    rw [List.cons_append, scan_blank_cons env fresh (hs c (by simp))]
    cases s with
    | nil => rfl
    | cons d s => rw [ih true (by simp) (fun e he => hs e (by simp [he]))]; rfl

/-- A name ends where a text goes on with a blank. -/
theorem takeWhile_append_of_blank (u : List Char) {v : List Char}
    (hv : ∀ c ∈ v.head?, Text.isBlank c = true) :
    (u ++ v).takeWhile isReferenceChar = u.takeWhile isReferenceChar ∧
      (u ++ v).dropWhile isReferenceChar = u.dropWhile isReferenceChar ++ v := by
  induction u with
  | nil =>
    cases v with
    | nil => exact ⟨rfl, rfl⟩
    | cons c v => simp [isReferenceChar_of_isBlank (hv c rfl)]
  | cons c u ih =>
    rw [List.cons_append, List.takeWhile_cons, List.dropWhile_cons, List.takeWhile_cons,
      List.dropWhile_cons, ih.1, ih.2]
    split <;> exact ⟨rfl, rfl⟩

/-- Where a text goes on with a blank, it can be cut. -/
theorem scan_append (fresh : Bool) (u : List Char) {v : List Char}
    (hv : ∀ c ∈ v.head?, Text.isBlank c = true) :
    scan env fresh (u ++ v) = scan env fresh u ++ scan env true v := by
  induction fresh, u using scan.induct with
  | case1 fresh =>
    rw [scan_nil, List.nil_append, List.nil_append]
    cases v with
    | nil => rw [scan_nil, scan_nil]
    | cons c v => rw [scan_blank_cons env fresh (hv c rfl), scan_blank_cons env true (hv c rfl)]
  | case2 fresh c rest hstart hname ih =>
    have hname' : (rest ++ v).takeWhile isReferenceChar = [] := by
      rw [(takeWhile_append_of_blank rest hv).1, hname]
    rw [List.cons_append, scan_lone env hstart hname', scan_lone env hstart hname, ih]
    rfl
  | case3 fresh c rest hstart hname ih =>
    obtain ⟨htake, hdrop⟩ := takeWhile_append_of_blank rest hv
    have hname' : (rest ++ v).takeWhile isReferenceChar ≠ [] := by
      rw [htake]
      exact hname
    rw [List.cons_append, scan_name env hstart hname', scan_name env hstart hname, htake, hdrop,
      ih, List.append_assoc]
  | case4 fresh c rest hstart ih =>
    have hother := Bool.eq_false_iff.mpr hstart
    rw [List.cons_append, scan_cons env hother, scan_cons env hother, ih]
    rfl

/-- Within a run, nothing but its start is looked at. -/
theorem scan_of_not_blank {cs : List Char} (h : ∀ c ∈ cs, Text.isBlank c = false) :
    scan env false cs = cs := by
  induction cs with
  | nil => exact scan_nil env false
  | cons c cs ih =>
    rw [scan_cons env rfl, h c (by simp), ih fun d hd => h d (by simp [hd])]

end Substitution

/-! ### What becomes of a run -/

open Substitution (isReferenceChar)

namespace Run

/-- The run as a text. -/
def text (r : Run) : String := String.ofList r.chars

/-- The run is a dash, a name that goes on as long as it can, and what is left behind it. -/
structure Refers (r : Run) (name rest : List Char) : Prop where
  chars_eq : r.chars = '-' :: (name ++ rest)
  ne_nil : name ≠ []
  belongs : ∀ c ∈ name, isReferenceChar c = true
  longest : ∀ c ∈ rest.head?, isReferenceChar c = false

variable {r : Run} {name rest : List Char}

theorem not_blank (h : r.blank = false) : ∀ c ∈ r.chars, Text.isBlank c = false :=
  fun c hc => h ▸ r.uniform c hc

/-- Only runs that are not blank are references. -/
theorem Refers.blank_eq (h : r.Refers name rest) : r.blank = false :=
  (r.uniform '-' (by simp [h.chars_eq])).symm

theorem Refers.takeWhile_eq (h : r.Refers name rest) :
    (name ++ rest).takeWhile isReferenceChar = name ∧
      (name ++ rest).dropWhile isReferenceChar = rest := by
  have hrest : rest.takeWhile isReferenceChar = [] ∧ rest.dropWhile isReferenceChar = rest := by
    cases rest with
    | nil => exact ⟨rfl, rfl⟩
    | cons c cs => simp [h.longest c rfl]
  rw [List.takeWhile_append_of_pos h.belongs, List.dropWhile_append_of_pos h.belongs, hrest.1,
    hrest.2, List.append_nil]
  exact ⟨rfl, rfl⟩

variable (env : Environment)

/-- A blank run stays. -/
theorem scan_of_blank (h : r.blank = true) : Substitution.scan env true r.chars = r.chars := by
  have hscan := Substitution.scan_blanks env true r.ne_nil (fun c hc => h ▸ r.uniform c hc) []
  rwa [Substitution.scan_nil, List.append_nil] at hscan

/-- In a run with a reference, the reference alone is replaced. -/
theorem Refers.scan_eq (h : r.Refers name rest) :
    Substitution.scan env true r.chars = Substitution.resolve env name ++ rest := by
  have hrest : ∀ c ∈ rest, Text.isBlank c = false :=
    fun c hc => not_blank h.blank_eq c (by simp [h.chars_eq, hc])
  rw [h.chars_eq, Substitution.scan_name env rfl, h.takeWhile_eq.1, h.takeWhile_eq.2,
    Substitution.scan_of_not_blank env hrest]
  rw [h.takeWhile_eq.1]
  exact h.ne_nil

/-- A run without a reference stays. -/
theorem scan_of_not_refers (h : ∀ name rest, ¬ r.Refers name rest) :
    Substitution.scan env true r.chars = r.chars := by
  cases hblank : r.blank with
  | true => exact scan_of_blank env hblank
  | false =>
    have hchars := not_blank hblank
    obtain ⟨c, cs, hcs⟩ := List.exists_cons_of_ne_nil r.ne_nil
    rw [hcs, List.forall_mem_cons] at hchars
    rw [hcs]
    cases hdash : true && c == '-' with
    | true =>
      have hnone : cs.takeWhile isReferenceChar = [] := by
        by_contra hname
        refine h _ (cs.dropWhile isReferenceChar) ⟨?_, hname, ?_, ?_⟩
        · rw [hcs, List.takeWhile_append_dropWhile, eq_of_beq hdash]
        · exact List.all_eq_true.mp List.all_takeWhile
        · intro d hd
          have hstop := List.head?_dropWhile_not isReferenceChar cs
          rwa [Option.mem_def.mp hd] at hstop
      rw [Substitution.scan_lone env hdash hnone, Substitution.scan_of_not_blank env hchars.2]
    | false =>
      rw [Substitution.scan_cons env hdash, hchars.1, Substitution.scan_of_not_blank env hchars.2]

theorem exists_of_head_flatMap {rs : List Run} {c : Char} (h : c ∈ (rs.flatMap chars).head?) :
    ∃ r ∈ rs.head?, c ∈ r.chars := by
  cases rs with
  | nil => simp at h
  | cons r rs =>
    obtain ⟨d, cs, hcs⟩ := List.exists_cons_of_ne_nil r.ne_nil
    rw [List.flatMap_cons, hcs] at h
    exact ⟨r, rfl, by simp_all⟩

/-- The runs of a text are passed over one by one. -/
theorem scan_runs {rs : List Run} (h : Alternate rs) :
    Substitution.scan env true (rs.flatMap chars) =
      rs.flatMap fun r => Substitution.scan env true r.chars := by
  induction rs with
  | nil => exact Substitution.scan_nil env true
  | cons r rs ih =>
    rw [List.flatMap_cons, List.flatMap_cons, ← ih h.tail]
    cases hblank : r.blank with
    | true =>
      rw [scan_of_blank env hblank, Substitution.scan_blanks env true r.ne_nil]
      exact fun c hc => hblank ▸ r.uniform c hc
    | false =>
      apply Substitution.scan_append
      intro c hc
      obtain ⟨r', hr', hmem⟩ := exists_of_head_flatMap hc
      have hother : r.blank ≠ r'.blank := List.isChain_cons.mp h |>.1 r' hr'
      rw [r'.uniform c hmem]
      simpa [hblank] using hother

end Run

theorem toList_substitute (env : Environment) (w : String) :
    (substitute env w).toList = Substitution.scan env true w.toList :=
  String.toList_ofList

/-- **References are replaced run by run.**  A text is cut into the longest possible runs, blank
and not blank by turns, and what becomes of the text is what becomes of its runs, one after the
other.

A blank run stays.  A run that refers to a name becomes the text of that name, followed by what
stood behind the reference, and stays as it is if the name is not bound: nothing shorter is
tried in the place of that name, and nothing that was put in is looked at again.  Any other run
stays.  In particular a text can be cut at any blanks. -/
theorem substitute_runs (env : Environment) :
    (∀ w : String, (Run.cut w.toList).flatMap Run.chars = w.toList ∧
      Run.Alternate (Run.cut w.toList) ∧
      (substitute env w).toList =
        (Run.cut w.toList).flatMap fun r => (substitute env r.text).toList) ∧
    (∀ r : Run, r.blank = true → substitute env r.text = r.text) ∧
    (∀ (r : Run) (name rest : List Char), r.Refers name rest →
      (∀ value, env.get? (String.ofList name) = some value →
        substitute env r.text = value ++ String.ofList rest) ∧
      (env.get? (String.ofList name) = none → substitute env r.text = r.text)) ∧
    (∀ r : Run, (∀ name rest, ¬ r.Refers name rest) → substitute env r.text = r.text) ∧
    ∀ u s v : String, s ≠ "" → (∀ c ∈ s.toList, Text.isBlank c = true) →
      substitute env (u ++ s ++ v) = substitute env u ++ s ++ substitute env v := by
  have hrun : ∀ r : Run, (substitute env r.text).toList = Substitution.scan env true r.chars := by
    intro r
    rw [toList_substitute, Run.text, String.toList_ofList]
  refine ⟨fun w => ⟨Run.flatMap_chars_cut _, Run.alternate_cut _, ?_⟩, ?_, ?_, ?_, ?_⟩
  · simp only [hrun]
    rw [← Run.scan_runs env (Run.alternate_cut _), Run.flatMap_chars_cut, toList_substitute]
  · intro r hblank
    rw [← String.toList_inj, hrun, Run.scan_of_blank env hblank, Run.text, String.toList_ofList]
  · intro r name rest href
    have hscan := href.scan_eq env
    constructor
    · intro value hvalue
      rw [← String.toList_inj, hrun, hscan, Substitution.resolve, hvalue]
      simp
    · intro hunbound
      rw [← String.toList_inj, hrun, hscan, Substitution.resolve, hunbound, Run.text,
        String.toList_ofList, href.chars_eq]
      rfl
  · intro r hother
    rw [← String.toList_inj, hrun, Run.scan_of_not_refers env hother, Run.text,
      String.toList_ofList]
  · intro u s v hne hs
    have hs' : s.toList ≠ [] := by simpa using hne
    have hhead : ∀ c ∈ (s.toList ++ v.toList).head?, Text.isBlank c = true := by
      rw [List.head?_append_of_ne_nil _ hs']
      exact fun c hc => hs c (List.mem_of_head? hc)
    rw [← String.toList_inj]
    simp only [String.toList_append, toList_substitute]
    rw [List.append_assoc, Substitution.scan_append env true _ hhead,
      Substitution.scan_blanks env true hs' hs, List.append_assoc]

/-- A reference to `a` brings in a reference to `b`, which stays although `b` is bound.  The name
behind the blanks is `ab`, and no use is made of `a` there. -/
theorem substitute_runs_sample :
    substitute (Bindings.ofList [("a", "-b"), ("b", "c")]) "-a.-b" = "-b.-b" ∧
      substitute (Bindings.ofList [("a", "-b"), ("b", "c")]) "-ab" = "-ab" ∧
      substitute (Bindings.ofList [("a", "-b"), ("b", "c")]) "x-a" = "x-a" ∧
      substitute (Bindings.ofList [("a", "-b"), ("b", "c")]) "\t " = "\t " ∧
      substitute (Bindings.ofList [("a", "-b"), ("b", "c")]) ("-a.-b" ++ "\t " ++ "-ab") =
        "-b.-b" ++ "\t " ++ "-ab" := by
  let bound : Run := ⟨['-', 'a', '.', '-', 'b'], false, by simp, by simp [Text.isBlank]⟩
  let unbound : Run := ⟨['-', 'a', 'b'], false, by simp, by simp [Text.isBlank]⟩
  let other : Run := ⟨['x', '-', 'a'], false, by simp, by simp [Text.isBlank]⟩
  let blanks : Run := ⟨['\t', ' '], true, by simp, by simp [Text.isBlank]⟩
  have hbound : bound.Refers ['a'] ['.', '-', 'b'] := by
    refine ⟨rfl, by simp, List.all_eq_true.mp (by decide), ?_⟩
    intro c hc
    cases hc
    decide
  have hunbound : unbound.Refers ['a', 'b'] [] :=
    ⟨rfl, by simp, List.all_eq_true.mp (by decide), by simp⟩
  have hother : ∀ name rest, ¬ other.Refers name rest := by
    intro name rest h
    cases h.chars_eq
  obtain ⟨-, hblanks, hrefers, hothers, hcut⟩ :=
    substitute_runs (Bindings.ofList [("a", "-b"), ("b", "c")])
  have hfirst := (hrefers bound _ _ hbound).1 "-b" (by decide)
  have hsecond := (hrefers unbound _ _ hunbound).2 (by decide)
  refine ⟨hfirst, hsecond, hothers other hother, hblanks blanks rfl, ?_⟩
  rw [hcut _ "\t " _ (by decide) (by simp [Text.isBlank])]
  exact congrArg₂ (· ++ "\t " ++ ·) hfirst hsecond

end Eel
