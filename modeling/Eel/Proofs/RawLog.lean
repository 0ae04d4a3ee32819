/-
A log written in raw form can be read back.

The raw form of an entry is its kind, its line and its text, with a comma and a semicolon
between them.  The raw form of a log has one entry on each line.  Nothing is escaped, so this
is only good for reading as long as no text breaks its line: a text with a line feed could
pass for two entries.  `Proofs/OneLine.lean` has the reason why there are none.  Commas and
semicolons may well occur in a text, but kind and line stand in front of it and have none.

Every turn of a run starts from an environment without line feeds and leaves one behind.
Hence no entry of a log has any, and the lines of the raw form are the raw forms of the
entries.
-/
import Eel.Proofs.OneLine
import Eel.Proofs.Resolution
import Eel.Proofs.RoundTrip
import Mathlib

namespace Eel

open Text (OneLine)

/-! ### Pieces -/

namespace Text

theorem not_mem_of_mem_pieces {sep : Char} {cs : List Char} :
    ∀ p ∈ pieces sep cs, sep ∉ p := by
  induction cs with
  | nil => simp [pieces]
  | cons c cs ih =>
    rw [pieces]
    split
    · simpa using ih
    · rename_i hc
      obtain ⟨p, ps, hps⟩ := List.exists_cons_of_ne_nil (pieces_ne_nil sep cs)
      rw [hps] at ih ⊢
      simpa [Ne.symm hc] using ih

theorem mem_of_mem_pieces {sep c : Char} {cs : List Char} :
    ∀ p ∈ pieces sep cs, c ∈ p → c ∈ cs := by
  induction cs with
  | nil => simp [pieces]
  | cons d cs ih =>
    intro p hp hc
    rw [pieces] at hp
    split at hp
    · rcases List.mem_cons.mp hp with rfl | hp
      · cases hc
      · exact List.mem_cons_of_mem d (ih p hp hc)
    · obtain ⟨q, qs, hqs⟩ := List.exists_cons_of_ne_nil (pieces_ne_nil sep cs)
      rw [hqs] at ih hp
      rcases List.mem_cons.mp hp with rfl | hp
      · exact (List.mem_cons.mp hc).elim (by rintro rfl; simp)
          fun hc => List.mem_cons_of_mem d (ih q (by simp) hc)
      · exact List.mem_cons_of_mem d (ih p (by simp [hp]) hc)

/-- Pieces without separators are found again. -/
theorem pieces_join {sep : Char} {ps : List (List Char)} (hne : ps ≠ [])
    (hps : ∀ p ∈ ps, sep ∉ p) : pieces sep (join [sep] ps) = ps := by
  induction ps with
  | nil => exact absurd rfl hne
  | cons p ps ih =>
    have hp : pieces sep p = [p] := pieces_of_not_mem (hps p (by simp))
    by_cases hlast : ps = []
    · rw [hlast]
      exact hp
    · have hlater := ih hlast fun q hq => hps q (by simp [hq])
      rw [join_cons_of_ne_nil _ _ hlast, List.append_assoc, List.singleton_append, pieces_append,
        hp, hlater, List.singleton_append]

/-- The first separator tells where the first part ends, whatever the second part holds. -/
theorem eq_of_append_cons {sep : Char} {a b x y : List Char} (ha : sep ∉ a) (hb : sep ∉ b)
    (h : a ++ sep :: x = b ++ sep :: y) : a = b ∧ x = y := by
  have hpieces := congrArg (pieces sep) h
  rw [pieces_append, pieces_append, pieces_of_not_mem ha, pieces_of_not_mem hb,
    List.singleton_append, List.singleton_append, List.cons.injEq] at hpieces
  refine ⟨hpieces.1, ?_⟩
  rw [← join_pieces sep x, hpieces.2, join_pieces]

theorem split_joinWith {sep : Char} {ws : List String} (hne : ws ≠ [])
    (hws : ∀ w ∈ ws, sep ∉ w.toList) : split sep (joinWith (String.ofList [sep]) ws) = ws := by
  have hpieces : pieces sep (join [sep] (ws.map String.toList)) = ws.map String.toList :=
    pieces_join (by simpa using hne) (by simpa using hws)
  simp [split, joinWith, hpieces]

end Text

/-! ### Lines -/

namespace Line

/-- A kept line of a text has no line feed. -/
theorem oneLine_of_mem_kept (markers : List String) (program : String) :
    ∀ line ∈ kept markers (Source.linesOfText program), OneLine line.text := by
  intro line hline
  obtain ⟨before, source, after, hlines, hfrom⟩ := exists_of_mem_keptFrom _ _ _ _ line hline
  have hsource : source ∈ Source.linesOfText program := by
    rw [hlines]
    simp
  obtain ⟨piece, hpiece, rfl⟩ := List.mem_map.mp hsource
  rw [OneLine, hfrom.text_eq, String.toList_ofList]
  exact fun h => Text.not_mem_of_mem_pieces piece hpiece (Text.mem_of_mem_trim h)

theorem oneLine_cut {text : String} (htext : OneLine text) :
    OneLine (cut text).1 ∧ ∀ w ∈ (cut text).2, OneLine w := by
  have hwords : ∀ w ∈ Text.split ' ' text, OneLine w := by
    intro w hw
    obtain ⟨piece, hpiece, rfl⟩ := List.mem_map.mp hw
    rw [Text.oneLine_ofList]
    exact fun h => htext (Text.mem_of_mem_pieces piece hpiece h)
  unfold cut
  split
  · exact ⟨by decide, by simp⟩
  · rename_i name words hsplit
    rw [hsplit] at hwords
    exact List.forall_mem_cons.mp hwords

end Line

/-! ### Raw entries -/

theorem Kind.eq_of_toString_code {k l : Kind} (h : toString k.code = toString l.code) : k = l := by
  revert h
  cases k <;> cases l <;> decide

namespace Entry

/-- The entry is shown, and on a single line. -/
def TakesOneLine (e : Entry) : Prop := ∃ text, e.text = some text ∧ OneLine text

theorem toList_raw {e : Entry} {text : String} (h : e.text = some text) :
    e.raw.toList =
      (toString e.kind.code).toList ++ ',' :: ((toString e.line).toList ++ ';' :: text.toList) := by
  simp [raw, h]

theorem TakesOneLine.raw {e : Entry} (h : e.TakesOneLine) : OneLine e.raw := by
  obtain ⟨text, htext, hline⟩ := h
  have hkind := Text.oneLine_toString_nat e.kind.code
  have hnumber := Text.oneLine_toString_int e.line
  unfold OneLine at hkind hnumber hline ⊢
  rw [toList_raw htext]
  simp only [List.mem_append, List.mem_cons, hkind, hnumber, hline]
  decide

/-- The raw form holds everything there is to an entry that is shown. -/
theorem eq_of_raw {a b : Entry} (ha : a.TakesOneLine) (hb : b.TakesOneLine)
    (h : a.raw = b.raw) : a = b := by
  obtain ⟨kind, _, line⟩ := a
  obtain ⟨kind', _, line'⟩ := b
  obtain ⟨text, rfl, -⟩ := ha
  obtain ⟨text', rfl, -⟩ := hb
  have hlist := congrArg String.toList h
  rw [toList_raw rfl, toList_raw rfl] at hlist
  obtain ⟨hcode, hrest⟩ := Text.eq_of_append_cons (Text.not_mem_toString_nat (by decide) _)
    (Text.not_mem_toString_nat (by decide) _) hlist
  obtain ⟨hnumber, hchars⟩ := Text.eq_of_append_cons
    (Text.not_mem_toString_int (by decide) (by decide) _)
    (Text.not_mem_toString_int (by decide) (by decide) _) hrest
  have hkind : kind = kind' := Kind.eq_of_toString_code (String.toList_inj.mp hcode)
  have hline : line = line' := Int.repr_injective (String.toList_inj.mp hnumber)
  have htext : text = text' := String.toList_inj.mp hchars
  rw [hkind, hline, htext]

end Entry

/-- A log in raw form, one entry below the other. -/
def rawText (log : List Entry) : String := Text.joinWith "\n" (log.map Entry.raw)

theorem linesOfText_rawText {log : List Entry} (hne : log ≠ [])
    (hlog : ∀ e ∈ log, e.TakesOneLine) : Source.linesOfText (rawText log) = log.map Entry.raw := by
  refine Text.split_joinWith (by simpa using hne) ?_
  intro w hw
  obtain ⟨e, he, rfl⟩ := List.mem_map.mp hw
  exact (hlog e he).raw

theorem eq_of_map_raw {log log' : List Entry} (hlog : ∀ e ∈ log, e.TakesOneLine)
    (hlog' : ∀ e ∈ log', e.TakesOneLine) (h : log.map Entry.raw = log'.map Entry.raw) :
    log = log' := by
  induction log generalizing log' with
  | nil => exact (List.map_eq_nil_iff.mp h.symm).symm
  | cons e log ih =>
    cases log' with
    | nil => cases h
    | cons e' log' =>
      rw [List.map_cons, List.map_cons, List.cons.injEq] at h
      rw [List.forall_mem_cons] at hlog hlog'
      rw [Entry.eq_of_raw hlog.1 hlog'.1 h.1, ih hlog.2 hlog'.2 h.2]

/-! ### Runs -/

namespace Interpreter

variable {i : Interpreter}

/-- What holds of the state at the start and passes from turn to turn holds at every turn. -/
theorem state_of_mem_turns {P : State → Prop} {lines : List Line}
    (hstep : ∀ s, ∀ line ∈ lines, ∀ outcome, P s →
      (i.evaluation ⟨s, line⟩).result = .ok outcome → P (s.after outcome)) :
    ∀ {s : State}, P s → ∀ t ∈ i.turns s lines, P t.state := by
  induction lines with
  | nil =>
    intro s _ t ht
    cases ht
  | cons line lines ih =>
    intro s hs t ht
    rw [turns, List.mem_cons] at ht
    rcases ht with rfl | ht
    · exact hs
    · split at ht
      · cases ht
      · rename_i outcome hresult
        split at ht
        · cases ht
        · refine ih (fun s l hl => hstep s l (List.mem_cons_of_mem line hl)) ?_ t ht
          exact hstep s line List.mem_cons_self outcome hs hresult

theorem pairwise_line_entries {s : State} {lines : List Line}
    (horder : lines.Pairwise fun a b => a.number < b.number) :
    ((i.turns s lines).flatMap i.entriesOf).Pairwise fun a b => a.line ≤ b.line := by
  have hlines := horder.sublist (i.map_line_turns_isPrefix s lines).sublist
  rw [List.pairwise_map] at hlines
  refine List.pairwise_flatMap.mpr ⟨fun t _ => ?_, hlines.imp fun {t u} hlt => ?_⟩
  · refine List.pairwise_of_forall_mem_list fun a ha b hb => ?_
    exact le_of_eq ((line_of_mem_entriesOf ha).trans (line_of_mem_entriesOf hb).symm)
  · intro a ha b hb
    rw [line_of_mem_entriesOf ha, line_of_mem_entriesOf hb]
    omega

section

variable (hi : i.registry = Builtin.registry)

include hi

theorem oneLine_evaluation {t : Turn} (henv : t.state.env.OneLine)
    (hline : OneLine t.line.text) : Keeps Outcome.OneLine (i.evaluation t).result := by
  obtain ⟨hname, hwords⟩ := Line.oneLine_cut hline
  unfold evaluation evaluate
  rw [hi]
  exact oneLine_evaluate henv _ _ hname hwords

theorem takesOneLine_of_mem_entriesOf {t : Turn} (henv : t.state.env.OneLine)
    (hline : OneLine t.line.text) : ∀ e ∈ i.entriesOf t, e.TakesOneLine := by
  have hends := oneLine_evaluation hi henv hline
  intro e he
  unfold entriesOf at he
  split at he
  · rename_i fault hresult
    rw [hresult, Keeps, endsIn_error] at hends
    rw [List.mem_singleton.mp he]
    exact ⟨_, rfl, hends.report⟩
  · rename_i outcome hresult
    rw [hresult, Keeps, endsIn_ok] at hends
    obtain ⟨said, hsaid, rfl⟩ := List.mem_map.mp he
    obtain ⟨hsaid, hshown⟩ := List.mem_filter.mp hsaid
    obtain ⟨text, htext⟩ := Option.isSome_iff_exists.mp hshown
    exact ⟨text, htext, hends.log said hsaid text htext⟩

/-- On lines without line feeds, an environment without line feeds stays one. -/
theorem oneLine_env_of_mem_turns {s : State} {lines : List Line} (henv : s.env.OneLine)
    (hlines : ∀ line ∈ lines, OneLine line.text) :
    ∀ t ∈ i.turns s lines, t.state.env.OneLine := by
  refine state_of_mem_turns (P := fun s => s.env.OneLine) ?_ henv
  intro s line hline outcome hs hresult
  have hends := oneLine_evaluation hi (t := ⟨s, line⟩) hs (hlines line hline)
  rw [hresult, Keeps, endsIn_ok] at hends
  exact hs.merge hends.writes

theorem takesOneLine_of_mem_run (chance : Chance) (program : String) :
    ∀ e ∈ (i.runLines ⟨.initial, chance⟩ (Source.linesOfText program)).entries,
      e.TakesOneLine := by
  have hlines := Line.oneLine_of_mem_kept i.registry.commentMarkers program
  intro e he
  rcases mem_of_mem_logOf he with he | rfl
  · rw [(i.runKept_turns _ _).1] at he
    obtain ⟨t, ht, he⟩ := List.mem_flatMap.mp he
    have henv := oneLine_env_of_mem_turns hi Environment.oneLine_initial hlines t ht
    have hline := hlines t.line (i.line_mem_of_mem_turns t ht)
    exact takesOneLine_of_mem_entriesOf hi henv hline e he
  · exact ⟨"no output", rfl, by decide⟩

theorem linesOfText_rawText_run (chance : Chance) (program : String) :
    Source.linesOfText
        (rawText (i.runLines ⟨.initial, chance⟩ (Source.linesOfText program)).entries) =
      (i.runLines ⟨.initial, chance⟩ (Source.linesOfText program)).entries.map Entry.raw :=
  linesOfText_rawText (logOf_ne_nil _) (takesOneLine_of_mem_run hi chance program)

/--
**The raw form of a log has a line for each entry, and no other log has the same raw form.**
With the built-in commands and the variables every run starts with, a program given as a text
leaves entries with a text and without line feeds.  Each entry carries the number of a kept
line, except for the one that stands for an empty log and is alone then; the numbers never go
down.  Programs with the same raw log have the same log.
-/
theorem raw_log_faithful (chance : Chance) (program : String) :
    ∃ p, i.run ⟨.initial, chance⟩ (.single (.text program)) = .ok p ∧
      (∀ e ∈ p.entries, ∃ text, e.text = some text ∧ '\n' ∉ text.toList) ∧
      (p.entries = [nothingSaid] ∨
        ∀ e ∈ p.entries, ∃ line ∈ Line.kept i.registry.commentMarkers (Source.linesOfText program),
          e.line = line.number) ∧
      (p.entries.Pairwise fun a b => a.line ≤ b.line) ∧
      Source.linesOfText (rawText p.entries) = p.entries.map Entry.raw ∧
      ∀ (j : Interpreter), j.registry = Builtin.registry → ∀ chance' program' q,
        j.run ⟨.initial, chance'⟩ (.single (.text program')) = .ok q →
        rawText p.entries = rawText q.entries → p.entries = q.entries := by
  have hrun : ∀ (j : Interpreter) chance program,
      j.run ⟨.initial, chance⟩ (.single (.text program)) =
        .ok (j.runLines ⟨.initial, chance⟩ (Source.linesOfText program)) := fun _ _ _ => rfl
  have hlog := takesOneLine_of_mem_run hi chance program
  have hraw := linesOfText_rawText_run hi chance program
  refine ⟨_, hrun i chance program, hlog, ?_, ?_, hraw, ?_⟩
  · rw [entries_runLines, logOf]
    split
    · exact .inl rfl
    · right
      intro e he
      obtain ⟨t, ht, he⟩ := List.mem_flatMap.mp he
      exact ⟨t.line, i.line_mem_of_mem_turns t ht, line_of_mem_entriesOf he⟩
  · rw [entries_runLines, logOf]
    split
    · exact List.pairwise_singleton _ _
    · exact pairwise_line_entries (Line.pairwise_keptFrom _ _ _ _)
  · intro j hj chance' program' q hq h
    obtain rfl := Except.ok.inj ((hrun j chance' program').symm.trans hq)
    have hlines := congrArg Source.linesOfText h
    rw [hraw, linesOfText_rawText_run hj] at hlines
    exact eq_of_map_raw hlog (takesOneLine_of_mem_run hj chance' program') hlines

end

/--
One program prints a variable, the other the same text as it stands: commas and semicolons in
it do not blur the raw form, and the logs are the same.
-/
theorem raw_log_faithful_separators :
    ∃ p q, ({ nesting := 9 } : Interpreter).run ⟨.initial, .constant 0⟩
        (.single (.text "set a 0,1;x\nprint -a 2;3\nadd 1 x;\\n")) = .ok p ∧
      ({ nesting := 9 } : Interpreter).run ⟨.initial, .constant 7⟩
        (.single (.text "// two\nprint 0,1;x 2;3\n sub x;\\n -a ")) = .ok q ∧
      rawText p.entries =
        "0,2;0,1;x 2;3\n2,3;ValueError: could not convert string to float: 'x;\\\\n'" ∧
      rawText q.entries =
        "0,2;0,1;x 2;3\n2,3;ValueError: could not convert string to float: 'x;\\\\n'" ∧
      p.entries = q.entries := by
  obtain ⟨p, hp, -, -, -, -, hunique⟩ := raw_log_faithful (i := { nesting := 9 }) rfl (.constant 0)
    "set a 0,1;x\nprint -a 2;3\nadd 1 x;\\n"
  obtain ⟨q, hq, -⟩ := raw_log_faithful (i := { nesting := 9 }) rfl (.constant 7)
    "// two\nprint 0,1;x 2;3\n sub x;\\n -a "
  have hpraw : rawText p.entries =
      "0,2;0,1;x 2;3\n2,3;ValueError: could not convert string to float: 'x;\\\\n'" := by
    obtain rfl := Except.ok.inj hp
    decide +kernel
  have hqraw : rawText q.entries =
      "0,2;0,1;x 2;3\n2,3;ValueError: could not convert string to float: 'x;\\\\n'" := by
    obtain rfl := Except.ok.inj hq
    decide +kernel
  exact ⟨p, q, hp, hq, hpraw, hqraw, hunique { nesting := 9 } rfl _ _ q hq (hpraw.trans hqraw.symm)⟩

end Interpreter

end Eel
