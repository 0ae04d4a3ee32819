/-
What is set is what is printed.

A text goes a long way from a `set` to the `print` that shows it.  Its line is trimmed and
cut at every space, references are replaced, the scan goes over the words, the handler
puts them together again, and the next line finds the text as the value of a variable.  If
the words of the text are inert, nothing happens to it on this way: spaces come back
because they are cut one by one, and what comes out of a variable is a single word,
whatever it looks like, and not replaced again.

Two things have to be seen about a single word.  A reference to a proper name takes all of
the name, dashes included: `substitute_reference`.  And a text with spaces in it is no command's
name, so it is as inert as its words: `classify_of_words`.  `evaluateLine_plain` is
the line of a plain command on such words.  The lines of the round trip,
`evaluateLine_set` and `evaluateLine_print`, are two cases of it.
-/
import Eel.Proofs.Folds
import Eel.Proofs.Lines
import Eel.Proofs.Trimming
import Eel.Proofs.Variables

namespace Eel

/-! ### Texts put side by side -/

namespace Text

theorem pieces_append (sep : Char) (a b : List Char) :
    pieces sep (a ++ sep :: b) = pieces sep a ++ pieces sep b := by
  induction a with
  | nil => simp [pieces]
  | cons c a ih =>
    obtain ⟨p, ps, hp⟩ := List.exists_cons_of_ne_nil (pieces_ne_nil sep a)
    simp only [List.cons_append, pieces, ih, hp]
    split <;> rfl

theorem pieces_of_not_mem {sep : Char} {cs : List Char} (h : sep ∉ cs) : pieces sep cs = [cs] := by
  induction cs with
  | nil => rfl
  | cons c cs ih =>
    rw [List.mem_cons, not_or] at h
    rw [pieces, if_neg (Ne.symm h.1), ih h.2]

theorem split_of_not_mem {sep : Char} {s : String} (h : sep ∉ s.toList) : split sep s = [s] := by
  simp [split, pieces_of_not_mem h]

/-- A word in front of a text, and a space between them. -/
theorem split_append {w : String} (h : ' ' ∉ w.toList) (t : String) :
    split ' ' (w ++ " " ++ t) = w :: split ' ' t := by
  have hpieces : pieces ' ' (w ++ " " ++ t).toList = w.toList :: pieces ' ' t.toList := by
    simp [pieces_append, pieces_of_not_mem h]
  rw [split, hpieces, List.map_cons, String.ofList_toList, split]

/-- A text ends as what was put behind it, unless that is empty. -/
theorem getLast?_append (s : String) {t : String} (h : t.toList ≠ []) :
    (s ++ t).toList.getLast? = t.toList.getLast? := by
  rw [String.toList_append, List.getLast?_append, List.getLast?_eq_some_getLast h, Option.some_or]

end Text

/-! ### Proper names are single words -/

namespace Environment

theorem IsNameLetter.isBlank_eq {c : Char} (h : IsNameLetter c) : Text.isBlank c = false := by
  have hcode : 33 ≤ c.toNat ∧ c.toNat < 128 := by
    rcases h with ⟨hA, hZ⟩ | ⟨ha, hz⟩ | ⟨h0, h9⟩ | rfl | rfl
    · exact ⟨Nat.le_trans (by decide) hA, Nat.lt_of_le_of_lt hZ (by decide)⟩
    · exact ⟨Nat.le_trans (by decide) ha, Nat.lt_of_le_of_lt hz (by decide)⟩
    · exact ⟨Nat.le_trans (by decide) h0, Nat.lt_of_le_of_lt h9 (by decide)⟩
    · decide
    · decide
  simp only [Text.isBlank, Bool.or_eq_false_iff, Bool.and_eq_false_iff, decide_eq_false_iff_not,
    beq_eq_false_iff_ne]
  omega

theorem IsNameLetter.isReferenceChar {c : Char} (h : IsNameLetter c) :
    Substitution.isReferenceChar c = true := by
  rw [← isNameChar_iff, isNameChar, Bool.or_eq_true] at h
  rw [Substitution.isReferenceChar, Text.isWordChar, Bool.or_eq_true, Bool.or_eq_true]
  exact h.imp_left .inl

namespace IsProperName

variable {n : String} (h : IsProperName n)

include h

theorem space_not_mem : ' ' ∉ n.toList := by
  intro hmem
  have := (h.2 ' ' hmem).isBlank_eq
  cases this

theorem isBlank_last : ∀ c ∈ n.toList.getLast?, Text.isBlank c = false :=
  fun c hc => (h.2 c (List.mem_of_getLast? hc)).isBlank_eq

end IsProperName

end Environment

open Environment (IsProperName)

namespace Substitution

/-- A reference that is all of a text stands for what it refers to. -/
theorem scan_reference (env : Environment) {name : List Char} (hne : name ≠ [])
    (h : ∀ c ∈ name, isReferenceChar c = true) :
    scan env true ('-' :: name) = resolve env name := by
  have htake : name.takeWhile isReferenceChar = name := List.takeWhile_eq_self_iff.mpr h
  have hdrop : name.dropWhile isReferenceChar = [] := List.dropWhile_eq_nil_iff.mpr h
  obtain ⟨c, cs, rfl⟩ := List.exists_cons_of_ne_nil hne
  simp [scan, htake, hdrop]

end Substitution

/-- A variable with a proper name can be referred to. -/
theorem substitute_reference {env : Environment} {n value : String} (hn : IsProperName n)
    (hvalue : env.get? n = some value) : substitute env ("-" ++ n) = value := by
  have hscan := Substitution.scan_reference env hn.1 fun c hc => (hn.2 c hc).isReferenceChar
  have hlist : ("-" ++ n).toList = '-' :: n.toList := by simp
  rw [substitute, hlist, hscan, Substitution.resolve, String.ofList_toList, hvalue,
    String.ofList_toList]

theorem settled_of_inert {r : Registry} {env : Environment} {ws : List String}
    (h : ∀ w ∈ ws, Inert r env w) : Settled env ws := by
  rw [Settled, List.map_congr_left fun w hw => (h w hw).unchanged, List.map_id']

/-! ### The built-in commands and spaces -/

namespace Builtin

theorem space_not_mem_name : ∀ c ∈ commands, ' ' ∉ c.name.toList := by
  decide +kernel

theorem get?_of_space {w : String} (h : ' ' ∈ w.toList) : registry.get? w = none := by
  refine List.find?_eq_none.mpr fun c hc hname => ?_
  rw [beq_iff_eq] at hname
  exact space_not_mem_name c hc (hname ▸ h)

/-- A text with a space in it is neither a marker nor an operator nor a call. -/
theorem classify_of_space {w : String} (h : ' ' ∈ w.toList) :
    registry.classify w = .literal w := by
  have hcalled : registry.called? w = none := by
    rw [Registry.called?]
    split
    · rename_i name hw
      rw [hw, List.mem_cons] at h
      rw [Registry.plain?, get?_of_space (by simpa using h)]
      rfl
    · rfl
  rw [Registry.classify, Registry.comment?, Registry.operator?, get?_of_space h, hcalled]
  rfl

/-- Words that are text one by one are text together. -/
theorem classify_of_words {text : String}
    (h : ∀ w ∈ Text.split ' ' text, registry.classify w = .literal w) :
    registry.classify text = .literal text := by
  by_cases hspace : ' ' ∈ text.toList
  · exact classify_of_space hspace
  · exact h text (by simp [Text.split_of_not_mem hspace])

/-- Plain commands begin with a character that neither blanks nor comments begin with. -/
theorem head_of_isPlain : ∀ c ∈ commands, c.isPlain = true →
    c.name.toList.head?.any (fun a => !Text.isBlank a && a != '/' && a != '-') = true := by
  decide +kernel

theorem exists_of_plain? {name : String} {c : Command} (hc : registry.plain? name = some c) :
    ∃ a cs, name.toList = a :: cs ∧ Text.isBlank a = false ∧ a ≠ '/' ∧ a ≠ '-' := by
  obtain ⟨hget, hplain⟩ := Option.filter_eq_some_iff.mp hc
  have hhead := head_of_isPlain c (List.mem_of_find?_eq_some hget) hplain
  rw [Registry.name_of_get? hget] at hhead
  cases hname : name.toList with
  | nil => simp [hname] at hhead
  | cons a cs =>
    simp only [hname, List.head?_cons, Option.any_some, Bool.and_eq_true, Bool.not_eq_true',
      bne_iff_ne] at hhead
    exact ⟨a, cs, rfl, hhead.1.1, hhead.1.2, hhead.2⟩

theorem commentMarkers_registry : registry.commentMarkers = ["//", "/*", "--"] := by
  decide +kernel

/-- A line is kept if no comment begins with its first character. -/
theorem isKept_cons {a : Char} (hslash : a ≠ '/') (hdash : a ≠ '-') (cs : List Char) :
    Line.isKept registry.commentMarkers (a :: cs) = true := by
  simp [Line.isKept, commentMarkers_registry, List.isPrefixOf, hslash.symm, hdash.symm]

theorem setVariable_cons (chance : Chance) {n : String} (hn : IsProperName n)
    (words : List String) :
    setVariable chance (n :: words) =
      .ok { value := Text.joinWith " " words,
            writes := .singleton n (Text.joinWith " " words) } :=
  setVariable_proper chance hn

end Builtin

/-! ### The two lines -/

namespace Interpreter

/-- Behind a line that does not halt, the others run on what it bound, one line further down. -/
theorem progress_cons_outcome {i : Interpreter} {s : State} {line : String} {o : Outcome}
    (h : i.evaluateLine s line = some (.ok o)) (hhalt : o.halt = false) (lines : List String) :
    (i.progress s (line :: lines)).entries =
        o.shown 1 ++ (i.progress (s.after o) lines).entries.map (.shift 1) ∧
      (i.progress s (line :: lines)).state = (i.progress (s.after o) lines).state := by
  obtain ⟨hentries, hstate, hstopped⟩ := progress_outcome h
  rw [hhalt] at hstopped
  rw [progress_cons, Progress.andThen_of_not_stopped hstopped, hentries, hstate]
  exact ⟨rfl, rfl⟩

section

variable {i : Interpreter} (hi : i.registry = Builtin.registry) (hnesting : 0 < i.nesting)
  {s : State}

include hi hnesting

/--
**The line of a plain command whose words are text after substitution** is kept, loses
no more than the blanks at its end, and comes to what the command's handler gives.
-/
theorem evaluateLine_plain {name tail line : String} {c : Command}
    (hc : Builtin.registry.plain? name = some c) {blanks : List Char}
    (hline : line.toList = (name ++ " " ++ tail).toList ++ blanks)
    (hblanks : Text.AllBlank blanks) (hne : tail.toList ≠ [])
    (hlast : ∀ b ∈ tail.toList.getLast?, Text.isBlank b = false) {params : List String}
    (hparams : (Text.split ' ' tail).map (substitute s.env) = params)
    (hliterals : ∀ p ∈ params, Builtin.registry.classify p = .literal p) :
    i.evaluateLine s line = some (c.handler s.chance params) := by
  obtain ⟨a, cs, hname, hblank, hslash, hdash⟩ := Builtin.exists_of_plain? hc
  have htext : (name ++ " " ++ tail).toList = a :: (cs ++ ' ' :: tail.toList) := by
    simp [hname]
  have htrim : Text.trim line.toList = (name ++ " " ++ tail).toList := by
    have htrimmed : Text.Trimmed (name ++ " " ++ tail).toList := by
      constructor
      · simpa [htext] using hblank
      · rwa [Text.getLast?_append _ hne]
    rw [hline]
    exact htrimmed.trim_eq (List.forall_mem_nil _) hblanks
  have hkept : Line.isKept i.registry.commentMarkers (Text.trim line.toList) = true := by
    rw [hi, htrim, htext]
    exact Builtin.isKept_cons hslash hdash _
  have hget := Registry.get?_of_plain? hc
  have hspace : ' ' ∉ name.toList := by
    rw [← Registry.name_of_get? hget]
    exact Builtin.space_not_mem_name c (List.mem_of_find?_eq_some hget)
  have hcut : Line.cut (String.ofList (Text.trim line.toList)) = (name, Text.split ' ' tail) := by
    rw [htrim, String.ofList_toList, Line.cut, Text.split_append hspace]
  have hwords : substituteAll s.env ((Text.split ' ' tail).map .word) = params := by
    rw [substituteAll_map_word, hparams]
  obtain ⟨nesting, hsucc⟩ := Nat.exists_eq_succ_of_ne_zero hnesting.ne'
  rw [evaluateLine, if_pos hkept, hcut]
  simp only [evaluate, hi, hsucc, evaluate_literals hget hwords hliterals]

variable {n text : String} (hn : IsProperName n)

include hn

/-- A `set` of inert words binds the name to them as they stand. -/
theorem evaluateLine_set (hlast : ∀ b ∈ text.toList.getLast?, Text.isBlank b = false)
    (hname : Inert Builtin.registry s.env n)
    (hwords : ∀ w ∈ Text.split ' ' text, Inert Builtin.registry s.env w) :
    i.evaluateLine s ("set " ++ n ++ " " ++ text) =
      some (.ok { value := text, writes := .singleton n text }) := by
  have hset : Builtin.registry.plain? "set" =
      some { name := "set", handler := Builtin.setVariable } := rfl
  by_cases hempty : text.toList = []
  · obtain rfl : text = "" := String.toList_eq_nil_iff.mp hempty
    -- Here the space behind the name is cut off, and the handler gets the name alone.
    have hline : ("set " ++ n ++ " " ++ "").toList = ("set" ++ " " ++ n).toList ++ [' '] := by
      simp
    have hparams : (Text.split ' ' n).map (substitute s.env) = [n] := by
      rw [Text.split_of_not_mem hn.space_not_mem, List.map_singleton, hname.unchanged]
    rw [evaluateLine_plain hi hnesting hset hline (List.forall_mem_singleton.mpr rfl) hn.1
      hn.isBlank_last hparams (by simpa using hname.literal)]
    exact congrArg some (Builtin.setVariable_cons s.chance hn [])
  · have hline : ("set " ++ n ++ " " ++ text).toList =
        ("set" ++ " " ++ (n ++ " " ++ text)).toList ++ [] := by
      simp
    have hparams : (Text.split ' ' (n ++ " " ++ text)).map (substitute s.env) =
        n :: Text.split ' ' text := by
      rw [Text.split_append hn.space_not_mem, List.map_cons, hname.unchanged,
        settled_of_inert hwords]
    have hvalue : Text.joinWith " " (Text.split ' ' text) = text := Text.joinWith_split ' ' text
    have hhandler := Builtin.setVariable_cons s.chance hn (Text.split ' ' text)
    rw [hvalue] at hhandler
    rw [evaluateLine_plain hi hnesting hset hline (List.forall_mem_nil _) (by simp) ?_ hparams ?_]
    · exact congrArg some hhandler
    · rwa [Text.getLast?_append _ hempty]
    · exact List.forall_mem_cons.mpr ⟨hname.literal, fun w hw => (hwords w hw).literal⟩

/-- A `print` of a variable shows the text it is bound to as a single word. -/
theorem evaluateLine_print (hvalue : s.env.get? n = some text)
    (hliteral : Builtin.registry.classify text = .literal text) :
    i.evaluateLine s ("print -" ++ n) = some (.ok (.say .output text false)) := by
  have hprint : Builtin.registry.plain? "print" =
      some (Builtin.logging "print" .output false) := rfl
  have hline : ("print -" ++ n).toList = ("print" ++ " " ++ ("-" ++ n)).toList ++ [] := by
    simp
  have hparams : (Text.split ' ' ("-" ++ n)).map (substitute s.env) = [text] := by
    rw [Text.split_of_not_mem (by simpa using hn.space_not_mem), List.map_singleton,
      substitute_reference hn hvalue]
  have hlast : ∀ b ∈ ("-" ++ n).toList.getLast?, Text.isBlank b = false := by
    rw [Text.getLast?_append _ hn.1]
    exact hn.isBlank_last
  rw [evaluateLine_plain hi hnesting hprint hline (List.forall_mem_nil _) (by simp) hlast hparams
    (by simpa using hliteral)]
  simp [Builtin.logging, Text.joinWith, Text.join]

end

/--
**What is set is what is printed.**  With the built-in commands, in any state, a `set` of a
proper name to a text and a `print` of that name show the text as it is, once, on the second
line, and the name is bound to the text and nothing else changes.  The name and the words
of the text, cut at single spaces, have to be inert, and the text must not end with a blank.
-/
theorem runLines_set_print (i : Interpreter) (hi : i.registry = Builtin.registry)
    (hnesting : 0 < i.nesting) (s : State) (n text : String) (hn : IsProperName n)
    (hlast : ∀ b ∈ text.toList.getLast?, Text.isBlank b = false)
    (hname : Inert Builtin.registry s.env n)
    (hwords : ∀ w ∈ Text.split ' ' text, Inert Builtin.registry s.env w) :
    (i.runLines s ["set " ++ n ++ " " ++ text, "print -" ++ n]).entries =
        [⟨.output, some text, 2⟩] ∧
      (i.runLines s ["set " ++ n ++ " " ++ text, "print -" ++ n]).state.env =
        s.env.insert n text ∧
      ∀ m, (i.runLines s ["set " ++ n ++ " " ++ text, "print -" ++ n]).state.env.get? m =
        if m = n then some text else s.env.get? m := by
  let after := s.after { value := text, writes := .singleton n text }
  have hset := evaluateLine_set hi hnesting hn hlast hname hwords
  have hvalue : after.env.get? n = some text :=
    (Bindings.get?_insert s.env n text n).trans (if_pos rfl)
  have hprint := evaluateLine_print hi hnesting hn hvalue
    (Builtin.classify_of_words fun w hw => (hwords w hw).literal)
  obtain ⟨hentries, hstate⟩ := progress_cons_outcome hset rfl ["print -" ++ n]
  obtain ⟨hshown, hafter, -⟩ := progress_outcome hprint
  rw [hshown, Outcome.shown_shift] at hentries
  have henv : (i.runLines s ["set " ++ n ++ " " ++ text, "print -" ++ n]).state.env =
      s.env.insert n text := by
    rw [runLines_eq, hstate, hafter]
    rfl
  refine ⟨?_, henv, fun m => ?_⟩
  · rw [runLines_eq, hentries]
    rfl
  · rw [henv, Bindings.get?_insert]

/--
A name that is a dash, with spaces, a tab and references to nothing in its text; a name that
is bound from the start; and a name that is a number, bound to the empty text.
-/
theorem runLines_set_print_dash :
    (IsProperName "-" ∧ Inert Builtin.registry (.ofList [("a", "1")]) "-" ∧
      ∀ w ∈ Text.split ' ' "  -b\t--c  d", Inert Builtin.registry (.ofList [("a", "1")]) w) ∧
    (({ nesting := 9 } : Interpreter).runLines ⟨.ofList [("a", "1")], .constant 0⟩
        ["set -   -b\t--c  d", "print --"]).entries = [⟨.output, some "  -b\t--c  d", 2⟩] ∧
    (({ nesting := 9 } : Interpreter).runLines ⟨.initial, .constant 0⟩
        ["set VERSION 2.0 beta", "print -VERSION"]).state.env =
      Environment.initial.insert "VERSION" "2.0 beta" ∧
    (({ nesting := 9 } : Interpreter).runLines ⟨∅, .constant 0⟩ ["set 5 ", "print -5"]).entries =
      [⟨.output, some "", 2⟩] := by
  have hproper : ∀ n ∈ ["-", "VERSION", "5"], IsProperName n := by
    simp only [← Environment.isName_iff]
    decide +kernel
  have hdash : Inert Builtin.registry (.ofList [("a", "1")]) "-" := ⟨by decide +kernel, rfl⟩
  have hwords : ∀ w ∈ Text.split ' ' "  -b\t--c  d",
      Inert Builtin.registry (.ofList [("a", "1")]) w := by
    have hsplit : Text.split ' ' "  -b\t--c  d" = ["", "", "-b\t--c", "", "d"] := by
      decide +kernel
    have hgap : Inert Builtin.registry (.ofList [("a", "1")]) "" := ⟨by decide +kernel, rfl⟩
    simp only [hsplit, List.forall_mem_cons]
    exact ⟨hgap, hgap, ⟨by decide +kernel, rfl⟩, hgap, ⟨by decide +kernel, rfl⟩, by simp⟩
  have hversion : ∀ w ∈ Text.split ' ' "2.0 beta", Inert Builtin.registry .initial w := by
    have hsplit : Text.split ' ' "2.0 beta" = ["2.0", "beta"] := by
      decide +kernel
    simp only [hsplit, List.forall_mem_cons]
    exact ⟨⟨by decide +kernel, rfl⟩, ⟨by decide +kernel, rfl⟩, by simp⟩
  have hnothing : ∀ w ∈ Text.split ' ' "", Inert Builtin.registry ∅ w := by
    rw [Text.split_of_not_mem (by decide), List.forall_mem_singleton]
    exact ⟨by decide +kernel, rfl⟩
  obtain ⟨hshown, -⟩ := runLines_set_print { nesting := 9 } rfl (by decide)
    ⟨.ofList [("a", "1")], .constant 0⟩ "-" "  -b\t--c  d" (hproper "-" (by simp))
    (by rintro b ⟨⟩; rfl) hdash hwords
  obtain ⟨-, henv, -⟩ := runLines_set_print { nesting := 9 } rfl (by decide)
    ⟨.initial, .constant 0⟩ "VERSION" "2.0 beta" (hproper "VERSION" (by simp))
    (by rintro b ⟨⟩; rfl) ⟨by decide +kernel, rfl⟩ hversion
  obtain ⟨hempty, -⟩ := runLines_set_print { nesting := 9 } rfl (by decide) ⟨∅, .constant 0⟩ "5" ""
    (hproper "5" (by simp)) (by rintro b ⟨⟩) ⟨by decide +kernel, rfl⟩ hnothing
  exact ⟨⟨hproper "-" (by simp), hdash, hwords⟩, hshown, henv, hempty⟩

end Interpreter

end Eel
