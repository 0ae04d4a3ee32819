/-
The console points at the lines that went wrong.

A run hands out its log and nothing else: entries with the number of a line on them.  To
point at that line, the command line cuts the program once more, looks the number up among
the kept lines and takes offset and width from there.  So the picture is right only if the
number is found, and if the stretch with that offset and width is the line that the run
evaluated, whatever blanks, blank lines and comments stand around it.

A kept line starts behind the lines above it, each with its line feed, and behind its own
blanks.  The numbers of kept lines grow, so a number is found at most once, and every entry
carries the number of a line that had its turn.
-/
import Eel.Proofs.Resolution
import Eel.Proofs.Showing
import Eel.Proofs.Trimming

namespace Eel

/-! ### Where a line stands in a text -/

/-- The lines of a text, put together again. -/
theorem Source.join_linesOfText (text : List Char) :
    Text.join ['\n'] ((linesOfText (String.ofList text)).map String.toList) = text := by
  have hjoin := congrArg String.toList (Text.joinWith_split '\n' (String.ofList text))
  simpa [linesOfText, Text.joinWith] using hjoin

namespace Line

/-- Lines in a row, each ended by a line feed. -/
def ended (lines : List String) : List Char := lines.flatMap fun line => line.toList ++ ['\n']

theorem length_ended (lines : List String) : (ended lines).length = width lines := by
  induction lines with
  | nil => rfl
  | cons line lines ih =>
    rw [ended, List.flatMap_cons, List.length_append, ← ended, ih]
    simp [width]

/-- The text of some lines starts with those in front, and goes on with the next one. -/
theorem exists_join_eq (before after : List String) (line : String) :
    ∃ back, Text.join ['\n'] ((before ++ line :: after).map String.toList) =
      ended before ++ (line.toList ++ back) := by
  induction before with
  | nil =>
    cases after with
    | nil => exact ⟨[], by simp [Text.join, ended]⟩
    | cons next after =>
      exact ⟨'\n' :: Text.join ['\n'] ((next :: after).map String.toList),
        by simp [Text.join, ended]⟩
  | cons first before ih =>
    obtain ⟨back, hjoin⟩ := ih
    refine ⟨back, ?_⟩
    rw [List.cons_append, List.map_cons, Text.join_cons_of_ne_nil _ _ (by simp), hjoin]
    simp [ended]

/-- A kept line is found at its offset, in the lines put together. -/
theorem take_drop_join {markers lines : List String} {line : Line}
    (hline : line ∈ kept markers lines) :
    ((Text.join ['\n'] (lines.map String.toList)).drop line.offset).take line.text.toList.length =
      line.text.toList := by
  obtain ⟨before, source, after, rfl, hfrom⟩ := exists_of_mem_keptFrom _ _ _ _ line hline
  obtain ⟨back, hjoin⟩ := exists_join_eq before after source
  have hdrop : (ended before ++ (source.toList ++ back)).drop line.offset =
      Text.trimLeft source.toList ++ back := by
    rw [hfrom.offset_eq, Nat.zero_add, ← length_ended, List.drop_length_add_append,
      List.drop_append_of_le_length (Nat.sub_le _ _), Text.trimLeft_eq_drop]
  rw [hjoin, hdrop, hfrom.text_eq]
  exact (List.prefix_iff_eq_take.mp
    ((Text.trim_isPrefix _).trans (List.prefix_append _ _))).symm

/-- A kept line is found in the text at its offset. -/
theorem slice_stretchOf {markers : List String} {d : Document} {line : Line}
    (hline : line ∈ kept markers (Source.linesOfText (String.ofList d.content))) :
    (Findings.stretchOf d line).slice = line.text.toList := by
  have hslice := take_drop_join hline
  rwa [Source.join_linesOfText] at hslice

theorem find?_number {lines : List Line} (horder : lines.Pairwise fun a b => a.number < b.number)
    {line : Line} (hline : line ∈ lines) :
    lines.find? (fun l => (l.number : Int) = line.number) = some line := by
  induction lines with
  | nil => cases hline
  | cons first lines ih =>
    rw [List.pairwise_cons] at horder
    rcases List.mem_cons.mp hline with rfl | hlater
    · simp
    · have hlt := horder.1 line hlater
      have hne : ¬ ((first.number : Int) = line.number) := by omega
      rw [List.find?_cons_of_neg (by simpa using hne)]
      exact ih horder.2 hlater

end Line

/-! ### Findings -/

namespace Findings

/-- Issues are added up to the capacity. -/
theorem issues_foldl_add (issues : List Issue) (f : Findings) :
    (issues.foldl add f).issues =
      f.issues ++ issues.take (f.capacity - f.issues.length).toNat := by
  induction issues generalizing f with
  | nil => simp
  | cons issue issues ih =>
    rw [List.foldl_cons, ih, add]
    split
    · rename_i hroom
      obtain ⟨room, hcount⟩ : ∃ room : Nat, (f.capacity - f.issues.length).toNat = room + 1 :=
        ⟨(f.capacity - f.issues.length).toNat - 1, by omega⟩
      have hrest : (f.capacity - (f.issues ++ [issue]).length).toNat = room := by
        rw [List.length_append, List.length_singleton]
        omega
      rw [hcount, hrest, List.take_succ_cons, List.append_assoc, List.singleton_append]
    · have hfull : (f.capacity - f.issues.length).toNat = 0 := by omega
      rw [hfull, List.take_zero, List.take_zero]

end Findings

/-! ### Errors and the turns that raised them -/

namespace Interpreter

variable (i : Interpreter)

/-- The errors of a run, each with the turn that raised it. -/
def raised (s : State) (lines : List Line) : List (Turn × Entry) :=
  (i.turns s lines).flatMap fun t => ((i.entriesOf t).filter (·.kind = .error)).map fun e => (t, e)

section

variable {i} {s : State} {lines : List Line}

theorem map_snd_raised :
    (i.raised s lines).map Prod.snd =
      ((i.turns s lines).flatMap i.entriesOf).filter (·.kind = .error) := by
  rw [raised, List.map_flatMap, List.filter_flatMap]
  congr 1
  funext t
  simp [Function.comp_def]

theorem mem_raised {x : Turn × Entry} (h : x ∈ i.raised s lines) :
    x.1 ∈ i.turns s lines ∧ x.2 ∈ i.entriesOf x.1 := by
  obtain ⟨t, ht, hx⟩ := List.mem_flatMap.mp h
  obtain ⟨e, he, rfl⟩ := List.mem_map.mp hx
  exact ⟨ht, (List.mem_filter.mp he).1⟩

theorem isShown_of_mem_entriesOf {t : Turn} : ∀ e ∈ i.entriesOf t, e.isShown = true := by
  intro e he
  unfold entriesOf at he
  split at he
  · rw [List.mem_singleton.mp he]
    rfl
  · obtain ⟨said, hsaid, rfl⟩ := List.mem_map.mp he
    exact (List.mem_filter.mp hsaid).2

/-- The line of an error is found, and it is the line that raised it. -/
theorem issueOf_raised (horder : lines.Pairwise fun a b => a.number < b.number) (d : Document)
    {x : Turn × Entry} (h : x ∈ i.raised s lines) :
    Findings.issueOf d lines x.2 = ⟨x.2.text, [Findings.stretchOf d x.1.line]⟩ := by
  obtain ⟨ht, he⟩ := mem_raised h
  have hfound := Line.find?_number horder (i.line_mem_of_mem_turns x.1 ht)
  rw [Findings.issueOf, line_of_mem_entriesOf he, hfound]
  rfl

end

theorem filter_error_logOf (entries : List Entry) :
    (logOf entries).filter (·.kind = .error) = entries.filter (·.kind = .error) := by
  unfold logOf
  split
  · simp_all [nothingSaid]
  · rfl

end Interpreter

/-! ### The command line -/

namespace CommandLine

/-- The kept lines of a program text. -/
def keptLines (text : List Char) : List Line :=
  Line.kept Builtin.registry.commentMarkers (Source.linesOfText (String.ofList text))

/-- The errors of a program text, each with the turn that raised it. -/
def raised (nesting : Nat) (chance : Chance) (text : List Char) : List (Turn × Entry) :=
  Interpreter.raised { nesting } ⟨.initial, chance⟩ (keptLines text)

/-- What running a program text comes to. -/
def progress (nesting : Nat) (chance : Chance) (text : List Char) : Progress :=
  Interpreter.runLines { nesting } ⟨.initial, chance⟩ (Source.linesOfText (String.ofList text))

section

variable (nesting : Nat) (chance : Chance) (text : List Char)

theorem map_snd_raised :
    (raised nesting chance text).map Prod.snd =
      (progress nesting chance text).entries.filter (·.kind = .error) := by
  rw [raised, Interpreter.map_snd_raised, progress, Interpreter.entries_runLines,
    Interpreter.filter_error_logOf]
  rfl

theorem isShown_of_mem_progress :
    ∀ e ∈ (progress nesting chance text).entries, e.isShown = true := by
  intro e he
  rw [progress, Interpreter.entries_runLines] at he
  rcases Interpreter.mem_of_mem_logOf he with he | rfl
  · obtain ⟨t, -, he⟩ := List.mem_flatMap.mp he
    exact Interpreter.isShown_of_mem_entriesOf e he
  · rfl

theorem raised_eq_nil_iff :
    raised nesting chance text = [] ↔
      ¬ ∃ e ∈ (progress nesting chance text).entries, e.kind = .error := by
  rw [← List.map_eq_nil_iff (f := Prod.snd), map_snd_raised, List.filter_eq_nil_iff]
  simp

/-- Where an error comes from: a turn of the run, whose line stands in the text where the
stretch says. -/
theorem line_of_mem_raised (name : String) {x : Turn × Entry}
    (hx : x ∈ raised nesting chance text) :
    x.1 ∈ Interpreter.turns { nesting } ⟨.initial, chance⟩ (keptLines text) ∧
      x.2 ∈ Interpreter.entriesOf { nesting } x.1 ∧
      (Findings.stretchOf ⟨text, name⟩ x.1.line).slice = x.1.line.text.toList ∧
      ∃ line, (Source.linesOfText (String.ofList text))[x.1.line.number - 1]? = some line ∧
        x.1.line.text.toList = Text.trim line.toList := by
  obtain ⟨hturn, hentry⟩ := Interpreter.mem_raised hx
  have hline : x.1.line ∈ keptLines text := Interpreter.line_mem_of_mem_turns _ x.1 hturn
  refine ⟨hturn, hentry, Line.slice_stretchOf hline, ?_⟩
  obtain ⟨before, line, after, hlines, hfrom⟩ :=
    Line.exists_of_mem_keptFrom _ _ _ _ x.1.line hline
  refine ⟨line, ?_, hfrom.text_eq⟩
  rw [hlines, hfrom.number_eq, Nat.add_sub_cancel_left, List.getElem?_append_right (Nat.le_refl _),
    Nat.sub_self, List.getElem?_cons_zero]

end

section

variable (nesting : Nat) (chance : Chance) (d : Document)

/-- The first ten errors are reported, each on the line that raised it. -/
theorem issues_addErrors :
    (addErrors {} d (progress nesting chance d.content).entries).issues =
      ((raised nesting chance d.content).take 10).map fun x =>
        ⟨x.2.text, [Findings.stretchOf d x.1.line]⟩ := by
  have hissues : (raised nesting chance d.content).map
        (Findings.issueOf d (keptLines d.content) ∘ Prod.snd) =
      (raised nesting chance d.content).map fun x =>
        ⟨x.2.text, [Findings.stretchOf d x.1.line]⟩ :=
    List.map_congr_left fun x hx =>
      Interpreter.issueOf_raised (Line.pairwise_keptFrom _ _ _ _) d hx
  have hroom : (({} : Findings).capacity - ({} : Findings).issues.length).toNat = 10 := rfl
  have hfindings : addErrors {} d (progress nesting chance d.content).entries =
      (((progress nesting chance d.content).entries.filter (·.kind = .error)).map
        (Findings.issueOf d (keptLines d.content))).foldl Findings.add {} := rfl
  rw [hfindings, ← map_snd_raised, List.map_map, hissues, Findings.issues_foldl_add, hroom,
    List.map_take, List.nil_append]

/-- The status that tells whether there are findings tells whether the log has an error. -/
theorem status_addErrors :
    (if (addErrors {} d (progress nesting chance d.content).entries).isEmpty then 0 else 1) =
      if ∃ e ∈ (progress nesting chance d.content).entries, e.kind = .error then 1 else 0 := by
  have hempty : (addErrors {} d (progress nesting chance d.content).entries).isEmpty = true ↔
      ¬ ∃ e ∈ (progress nesting chance d.content).entries, e.kind = .error := by
    rw [Findings.isEmpty, issues_addErrors, List.isEmpty_iff, List.map_eq_nil_iff,
      List.take_eq_nil_iff, or_iff_right (by decide), raised_eq_nil_iff]
  by_cases herror : ∃ e ∈ (progress nesting chance d.content).entries, e.kind = .error
  · rw [if_neg (fun h => hempty.mp h herror), if_pos herror]
  · rw [if_pos (hempty.mpr herror), if_neg herror]

/-- What is pointed out about an error: its text, and below it the picture of its line. -/
def pointedOut (drawing : Drawing) (x : Turn × Entry) : Except Fault String :=
  ((Findings.stretchOf d x.1.line).picture drawing).map fun picture =>
    x.2.text.getD "" ++ "\n" ++ picture

theorem text_of_mem_raised (drawing : Drawing) {x : Turn × Entry}
    (hx : x ∈ raised nesting chance d.content) :
    Issue.text drawing ⟨x.2.text, [Findings.stretchOf d x.1.line]⟩ = pointedOut d drawing x := by
  obtain ⟨text, htext⟩ := Option.isSome_iff_exists.mp
    (Interpreter.isShown_of_mem_entriesOf x.2 (Interpreter.mem_raised hx).2)
  rw [Issue.text, pointedOut, List.mapM_cons, htext]
  cases (Findings.stretchOf d x.1.line).picture drawing with
  | error fault => rfl
  | ok picture =>
    refine congrArg Except.ok ?_
    simp [Text.joinWith, Text.join, String.append_assoc]

theorem mapM_text_addErrors (drawing : Drawing) :
    (addErrors {} d (progress nesting chance d.content).entries).issues.mapM
        (Issue.text drawing) =
      ((raised nesting chance d.content).take 10).mapM (pointedOut d drawing) := by
  rw [issues_addErrors, List.mapM_map]
  exact mapM_congr fun x hx => text_of_mem_raised nesting chance d drawing (List.mem_of_mem_take hx)

end

/-- A run shows its log to the end, and the report comes after it. -/
theorem runText_eq (host : Host) (options : Options) (chance : Chance) (exclamation : String)
    (d : Document) :
    runText host options chance exclamation d =
      ⟨linesOf options.raw (·.kind = .output) (progress host.nesting chance d.content).entries,
        traceText options.verbose (progress host.nesting chance d.content).events ++
          linesOf options.raw (·.kind ≠ .output) (progress host.nesting chance d.content).entries ++
          (report host exclamation d (progress host.nesting chance d.content).entries).errors,
        (report host exclamation d (progress host.nesting chance d.content).entries).result⟩ := by
  have hshown := showEntries_eq (isShown_of_mem_progress host.nesting chance d.content) options.raw
  have hrun : runText host options chance exclamation d =
      Console.complain (traceText options.verbose
        (progress host.nesting chance d.content).events) >>= fun _ =>
          showEntries options.raw (progress host.nesting chance d.content).entries >>= fun _ =>
            report host exclamation d (progress host.nesting chance d.content).entries := rfl
  rw [hrun, hshown, Console.complain_bind, Console.bind_of_ok _ rfl, output_report,
    String.append_empty, String.append_assoc]

/--
**The console reports the errors of a run, each on the line that raised it**, whatever the host
draws, and whether it can.  For a program that can be read, the findings are the first ten errors
in the order of the log.  Each has exactly one place, a stretch of the program text, and what
stands there is the line whose turn raised the error, without the blanks around it.

The log is shown in any case.  Then an exit status comes out exactly if the host takes the text
in and draws each of the findings, and it tells whether the log has an error.  If none comes out,
the fault is one of the host's.  If all can be drawn, all are shown, and shown last.
-/
theorem runFile_reports_errors (host : Host) (options : Options) (chance : Chance)
    (exclamation : String) (location : Location) {bytes : List UInt8} {decoded : List Char}
    {d : Document} (hread : Utf8.decode bytes = .ok decoded)
    (hd : d = ⟨Utf8.unifyLineEnds decoded, location.text⟩) :
    ∃ p screen,
      Interpreter.run { nesting := host.nesting } ⟨.initial, chance⟩
        (.single (.text (String.ofList d.content))) = .ok p ∧
      runFile host options chance exclamation location (.ok bytes) = screen ∧
      (∀ status, screen.result = .ok status ↔
        host.drawing.accept d = .ok () ∧
        (∀ x ∈ (raised host.nesting chance d.content).take 10,
          ∃ text, pointedOut d host.drawing x = .ok text) ∧
        status = if ∃ e ∈ p.entries, e.kind = .error then 1 else 0) ∧
      (∀ fault, screen.result = .error fault →
        host.drawing.accept d = .error fault ∨
        ∃ x ∈ (raised host.nesting chance d.content).take 10,
          pointedOut d host.drawing x = .error fault) ∧
      (raised host.nesting chance d.content).map Prod.snd =
        p.entries.filter (·.kind = .error) ∧
      (addErrors {} d p.entries).issues =
        ((raised host.nesting chance d.content).take 10).map (fun x =>
          ⟨x.2.text, [Findings.stretchOf d x.1.line]⟩) ∧
      (∀ x ∈ raised host.nesting chance d.content,
        x.1 ∈ Interpreter.turns { nesting := host.nesting } ⟨.initial, chance⟩
          (keptLines d.content) ∧
        x.2 ∈ Interpreter.entriesOf { nesting := host.nesting } x.1 ∧
        (Findings.stretchOf d x.1.line).slice = x.1.line.text.toList ∧
        ∃ line, (Source.linesOfText (String.ofList d.content))[x.1.line.number - 1]? = some line ∧
          x.1.line.text.toList = Text.trim line.toList) ∧
      (∀ e ∈ p.entries, e.isShown = true) ∧
      screen.output = linesOf options.raw (·.kind = .output) p.entries ∧
      screen.errors = traceText options.verbose p.events
        ++ linesOf options.raw (·.kind ≠ .output) p.entries
        ++ (report host exclamation d p.entries).errors ∧
      ∀ texts, host.drawing.accept d = .ok () →
        ((raised host.nesting chance d.content).take 10).mapM (pointedOut d host.drawing) =
          .ok texts →
        (report host exclamation d p.entries).errors =
          (addErrors {} d p.entries).opening exclamation ++ Issue.ruled texts := by
  have hscreen : runFile host options chance exclamation location (.ok bytes) =
      runText host options chance exclamation d := by
    simp only [runFile, hread, hd]
  have hrun : Interpreter.run { nesting := host.nesting } ⟨.initial, chance⟩
      (.single (.text (String.ofList d.content))) =
        .ok (progress host.nesting chance d.content) := rfl
  have htext : ∀ x ∈ (raised host.nesting chance d.content).take 10,
      Issue.text host.drawing ⟨x.2.text, [Findings.stretchOf d x.1.line]⟩ =
        pointedOut d host.drawing x :=
    fun x hx => text_of_mem_raised _ _ _ _ (List.mem_of_mem_take hx)
  have hraised := map_snd_raised host.nesting chance d.content
  have hissues := issues_addErrors host.nesting chance d
  have hstatus := status_addErrors host.nesting chance d
  have htexts := mapM_text_addErrors host.nesting chance d host.drawing
  have hshown := isShown_of_mem_progress host.nesting chance d.content
  rw [hscreen, runText_eq]
  generalize progress host.nesting chance d.content = p at *
  refine ⟨p, _, hrun, rfl, fun status => ?_, fun fault hfault => ?_, hraised, hissues,
    fun x => line_of_mem_raised _ _ _ d.name, hshown, rfl, rfl, fun texts haccept hpictures => ?_⟩
  · rw [result_report_eq_ok_iff, hstatus, hissues, List.forall_mem_map]
    exact and_congr_right fun _ => and_congr_left fun _ => forall₂_congr fun x hx => by
      rw [htext x hx]
  · have hreport : (report host exclamation d p.entries).result = .error fault := hfault
    have hcause := exists_of_report_error host exclamation d p.entries hreport
    rw [hissues] at hcause
    refine hcause.imp_right ?_
    rintro ⟨issue, hissue, hpicture⟩
    obtain ⟨x, hx, rfl⟩ := List.mem_map.mp hissue
    exact ⟨x, hx, by rwa [← htext x hx]⟩
  · exact errors_report exclamation haccept (htexts.trans hpictures)

/-- A host that is only asked about the third row of a text, and about its third column. -/
def thirdRow : Host where
  nesting := 9
  drawing :=
    { accept := fun _ => .ok ()
      find := fun _ _ => .ok (3, 2)
      rowText := fun _ _ => .ok " \terror -error é \n"
      illustrate := fun row column width label caption =>
        let front := label.toList ++ row.toList.take column.toNat
        .ok (String.ofList (label.toList ++ Text.trimRight row.toList ++ ['\n']
          ++ front.map (fun c => if c = '\t' then c else ' ')
          ++ List.replicate width '^' ++ [' '] ++ caption.toList)) }

/--
Two errors from one line, which stands behind a comment and a blank line, with blanks around
it: both point at the fourteen characters of that line.
-/
theorem runFile_reports_errors_nested :
    Utf8.decode "// x\r\n\n \terror -error é \r\nprint b".toUTF8.data.toList =
        .ok "// x\r\n\n \terror -error é \r\nprint b".toList ∧
      (⟨"// x\n\n \terror -error é \nprint b".toList, "/x.eel"⟩ : Document) =
        ⟨Utf8.unifyLineEnds "// x\r\n\n \terror -error é \r\nprint b".toList,
          (Location.ofPath "/" "x.eel").text⟩ ∧
    ∃ p screen place,
      Interpreter.run { nesting := 9 } ⟨.initial, .constant 0⟩
        (.single (.text "// x\n\n \terror -error é \nprint b")) = .ok p ∧
      p.entries = [⟨.error, some "é", 3⟩, ⟨.error, some "true", 3⟩] ∧
      runFile thirdRow ⟨false, 0⟩ (.constant 0) "Rats!" (.ofPath "/" "x.eel")
        (.ok "// x\r\n\n \terror -error é \r\nprint b".toUTF8.data.toList) = screen ∧
      screen.result = .ok 1 ∧
      (addErrors {} ⟨"// x\n\n \terror -error é \nprint b".toList, "/x.eel"⟩ p.entries).issues =
        [⟨some "é", [place]⟩, ⟨some "true", [place]⟩] ∧
      place.slice = "error -error é".toList ∧
      screen.errors = "ERROR: é\nERROR: true\n" ++ Findings.banner ++ "Rats!\n"
        ++ Issue.rule ++ "é\n     3 | \terror -error é\n         \t^^^^^^^^^^^^^^ \n"
        ++ Issue.rule ++ "true\n     3 | \terror -error é\n         \t^^^^^^^^^^^^^^ \n" := by
  have hread : Utf8.decode "// x\r\n\n \terror -error é \r\nprint b".toUTF8.data.toList =
      .ok "// x\r\n\n \terror -error é \r\nprint b".toList := by
    decide +kernel
  have htext : "// x\n\n \terror -error é \nprint b".toList =
      Utf8.unifyLineEnds "// x\r\n\n \terror -error é \r\nprint b".toList := by
    decide +kernel
  have hd : (⟨"// x\n\n \terror -error é \nprint b".toList, "/x.eel"⟩ : Document) =
      ⟨Utf8.unifyLineEnds "// x\r\n\n \terror -error é \r\nprint b".toList,
        (Location.ofPath "/" "x.eel").text⟩ :=
    congrArg₂ Document.mk htext (by decide +kernel)
  obtain ⟨p, screen, hrun, hscreen, hstatus, -, -, hissues, hplaces, -⟩ :=
    runFile_reports_errors thirdRow ⟨false, 0⟩ (.constant 0) "Rats!" (.ofPath "/" "x.eel") hread hd
  have hraised : (raised thirdRow.nesting (.constant 0)
      (⟨"// x\n\n \terror -error é \nprint b".toList, "/x.eel"⟩ : Document).content).map
      (fun x => (x.2.text, x.1.line)) =
        [(some "é", ⟨3, 8, "error -error é"⟩), (some "true", ⟨3, 8, "error -error é"⟩)] := by
    decide +kernel
  have hentries : p.entries = [⟨.error, some "é", 3⟩, ⟨.error, some "true", 3⟩] := by
    obtain rfl := Except.ok.inj hrun
    decide +kernel
  have hresult : screen.result = .ok 1 := by
    rw [← hscreen]
    decide +kernel
  obtain ⟨x, later, hlater, hx, hraised⟩ := List.map_eq_cons_iff.mp hraised
  obtain ⟨y, rest, rfl, hy, hraised⟩ := List.map_eq_cons_iff.mp hraised
  obtain rfl := List.map_eq_nil_iff.mp hraised
  rw [Prod.mk.injEq] at hx hy
  rw [hlater] at hissues hplaces
  obtain ⟨-, -, hslice, -⟩ := hplaces x List.mem_cons_self
  rw [hx.2] at hslice
  refine ⟨hread, hd, p, screen, _, hrun, hentries, hscreen, hresult, ?_, hslice, ?_⟩
  · rw [hissues]
    simp [hx, hy]
  · rw [← hscreen]
    decide +kernel

end CommandLine

end Eel
