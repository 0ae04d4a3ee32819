/-
What gets onto the console, and what ends the showing early.

Showing goes on until a fault ends it.  The entries of a run have a text each, so they are all
shown, each on its stream.  Findings are drawn by the host, which may fail at any of them.  Then
the findings in front of that one are on the console, and the rule above it, and the fault is
what comes out.
-/
import Eel.CommandLine
import Mathlib.Control.Basic

namespace Eel

namespace Text

theorem joinWith_empty_cons (w : String) (ws : List String) :
    joinWith "" (w :: ws) = w ++ joinWith "" ws := by
  cases ws with
  | nil => simp [joinWith, join]
  | cons v ws => simp [joinWith, join]

end Text

/-! ### Steps that may fail, one after the other -/

section

variable {α β : Type} {f : α → Except Fault β}

theorem exists_of_mapM_cons {a : α} {as : List α} {bs : List β}
    (h : (a :: as).mapM f = .ok bs) :
    ∃ b later, f a = .ok b ∧ as.mapM f = .ok later ∧ b :: later = bs := by
  rw [List.mapM_cons] at h
  cases hb : f a with
  | error fault =>
    rw [hb] at h
    cases h
  | ok b =>
    cases hlater : as.mapM f with
    | error fault =>
      rw [hb, hlater] at h
      cases h
    | ok later =>
      rw [hb, hlater] at h
      exact ⟨b, later, rfl, rfl, Except.ok.inj h⟩

theorem mapM_cons_of_ok {a : α} {as : List α} {b : β} {bs : List β} (h : f a = .ok b)
    (hs : as.mapM f = .ok bs) : (a :: as).mapM f = .ok (b :: bs) := by
  rw [List.mapM_cons, h, hs]
  rfl

theorem mapM_congr {f g : α → Except Fault β} {as : List α} (h : ∀ a ∈ as, f a = g a) :
    as.mapM f = as.mapM g := by
  induction as with
  | nil => rfl
  | cons a as ih =>
    rw [List.forall_mem_cons] at h
    rw [List.mapM_cons, List.mapM_cons, h.1, ih h.2]

theorem exists_of_mapM {as : List α} {bs : List β} (h : as.mapM f = .ok bs) :
    ∀ a ∈ as, ∃ b, f a = .ok b := by
  induction as generalizing bs with
  | nil => exact List.forall_mem_nil _
  | cons a as ih =>
    obtain ⟨b, later, hb, hlater, -⟩ := exists_of_mapM_cons h
    exact List.forall_mem_cons.mpr ⟨⟨b, hb⟩, ih hlater⟩

/-- Either all steps go well, or there is a first one that does not. -/
theorem mapM_cases (f : α → Except Fault β) (as : List α) :
    (∃ bs, as.mapM f = .ok bs) ∨
      ∃ before a after bs fault,
        as = before ++ a :: after ∧ before.mapM f = .ok bs ∧ f a = .error fault := by
  induction as with
  | nil => exact .inl ⟨[], rfl⟩
  | cons a as ih =>
    cases ha : f a with
    | error fault => exact .inr ⟨[], a, as, [], fault, rfl, rfl, ha⟩
    | ok b =>
      rcases ih with ⟨bs, hbs⟩ | ⟨before, c, after, bs, fault, rfl, hbs, hc⟩
      · exact .inl ⟨b :: bs, mapM_cons_of_ok ha hbs⟩
      · exact .inr ⟨a :: before, c, after, b :: bs, fault, rfl, mapM_cons_of_ok ha hbs, hc⟩

end

/-! ### Console computations one after the other -/

namespace Console

variable {α β : Type}

theorem complain_bind (text : String) (f : Unit → Console β) :
    (complain text >>= f) = ⟨(f ()).output, text ++ (f ()).errors, (f ()).result⟩ := by
  rw [bind_of_ok (a := ()) f rfl]
  simp [complain]

theorem print_bind (text : String) (f : Unit → Console β) :
    (print text >>= f) = ⟨text ++ (f ()).output, (f ()).errors, (f ()).result⟩ := by
  rw [bind_of_ok (a := ()) f rfl]
  simp [print]

theorem complain_complain_bind (a b : String) (f : Unit → Console β) :
    (complain a >>= fun _ => complain b >>= f) = complain (a ++ b) >>= f := by
  simp [complain_bind, String.append_assoc]

theorem ofExcept_ok_bind (a : α) (f : α → Console β) : (ofExcept (.ok a) >>= f) = f a := by
  rw [bind_of_ok (a := a) f rfl]
  simp [ofExcept]

theorem ofExcept_error_bind (fault : Fault) (f : α → Console β) :
    (ofExcept (.error fault) >>= f) = ofExcept (.error fault) :=
  bind_of_error f rfl

end Console

/-! ### Entries -/

namespace CommandLine

/-- The line on which an entry is shown. -/
def lineOf (raw : Bool) (e : Entry) : String :=
  (if raw then e.raw else e.kind.label ++ e.text.getD "") ++ "\n"

/-- The entries for which `p` holds, each on its line. -/
def linesOf (raw : Bool) (p : Entry → Bool) (log : List Entry) : String :=
  Text.joinWith "" ((log.filter p).map (lineOf raw))

theorem showEntry_eq {e : Entry} (h : e.isShown = true) (raw : Bool) :
    showEntry raw e =
      if e.kind = .output then .print (lineOf raw e) else .complain (lineOf raw e) := by
  obtain ⟨text, htext⟩ := Option.isSome_iff_exists.mp h
  have hprose : e.prose = .ok (e.kind.label ++ e.text.getD "") := by
    rw [Entry.prose, htext]
    rfl
  have hline : (if raw then .ok e.raw else e.prose) =
      Except.ok (if raw then e.raw else e.kind.label ++ e.text.getD "") := by
    rw [hprose]
    split <;> rfl
  rw [showEntry, hline, Console.ofExcept_ok_bind]
  rfl

/-- Entries with texts are all shown, output on its stream and the others on the other one. -/
theorem showEntries_eq {log : List Entry} (h : ∀ e ∈ log, e.isShown = true) (raw : Bool) :
    showEntries raw log =
      ⟨linesOf raw (·.kind = .output) log, linesOf raw (·.kind ≠ .output) log, .ok ()⟩ := by
  induction log with
  | nil => rfl
  | cons e log ih =>
    rw [List.forall_mem_cons] at h
    have hcons : showEntries raw (e :: log) = showEntry raw e >>= fun _ => showEntries raw log :=
      rfl
    rw [hcons, showEntry_eq h.1, ih h.2]
    by_cases hkind : e.kind = .output
    · rw [if_pos hkind, Console.print_bind]
      simp [linesOf, hkind, Text.joinWith_empty_cons]
    · rw [if_neg hkind, Console.complain_bind]
      simp [linesOf, hkind, Text.joinWith_empty_cons]

end CommandLine

/-! ### Findings -/

/-- The texts of some issues, each under its rule. -/
def Issue.ruled (texts : List String) : String :=
  Text.joinWith "" (texts.map fun text => rule ++ (text ++ "\n"))

namespace Issue

variable {drawing : Drawing} {shown : String} {texts : List String} {fault : Fault}

theorem ruled_cons (text : String) (texts : List String) :
    ruled (text :: texts) = rule ++ (text ++ "\n") ++ ruled texts :=
  Text.joinWith_empty_cons ..

theorem toConsole_of_ok {i : Issue} (h : i.text drawing = .ok shown) :
    i.toConsole drawing = .complain (rule ++ (shown ++ "\n")) := by
  rw [toConsole, h, Console.ofExcept_ok_bind, Console.complain_bind]
  rfl

/-- The rule is shown before it turns out that there is no text. -/
theorem toConsole_of_error {i : Issue} (h : i.text drawing = .error fault) :
    i.toConsole drawing = ⟨"", rule, .error fault⟩ := by
  rw [toConsole, h, Console.ofExcept_error_bind, Console.complain_bind]
  simp [Console.ofExcept]

/-- Issues that have texts are shown, and then the others have their turn. -/
theorem forM_toConsole_append {issues : List Issue} (h : issues.mapM (text drawing) = .ok texts)
    (after : List Issue) :
    (issues ++ after).forM (toConsole drawing) =
      .complain (ruled texts) >>= fun _ => after.forM (toConsole drawing) := by
  induction issues generalizing texts with
  | nil =>
    obtain rfl : [] = texts := Except.ok.inj h
    simp [Console.complain_bind, ruled, Text.joinWith, Text.join]
  | cons issue issues ih =>
    obtain ⟨shown, later, hshown, hlater, rfl⟩ := exists_of_mapM_cons h
    have hcons : ((issue :: issues) ++ after).forM (toConsole drawing) =
        issue.toConsole drawing >>= fun _ => (issues ++ after).forM (toConsole drawing) := rfl
    rw [hcons, toConsole_of_ok hshown, ih hlater, Console.complain_complain_bind, ← ruled_cons]

end Issue

namespace Findings

/-- What is shown above the issues. -/
def opening (f : Findings) (exclamation : String) : String :=
  if f.isEmpty then "" else banner ++ exclamation ++ "\n"

variable {drawing : Drawing} {f : Findings} {texts : List String} {fault : Fault}

theorem toConsole_eq (drawing : Drawing) (exclamation : String) (f : Findings) :
    f.toConsole drawing exclamation =
      .complain (f.opening exclamation) >>= fun _ => f.issues.forM (Issue.toConsole drawing) := by
  unfold toConsole opening
  split
  · simp [Console.complain_bind]
  · rfl

/-- If all issues have texts, all of them are shown. -/
theorem toConsole_of_ok (h : f.issues.mapM (Issue.text drawing) = .ok texts)
    (exclamation : String) :
    f.toConsole drawing exclamation =
      .complain (f.opening exclamation ++ Issue.ruled texts) := by
  have hnone : [].forM (Issue.toConsole drawing) = Console.ofExcept (.ok ()) := rfl
  have hall := Issue.forM_toConsole_append h []
  rw [List.append_nil, hnone] at hall
  rw [toConsole_eq, hall, Console.complain_complain_bind, Console.complain_bind]
  simp [Console.complain, Console.ofExcept]

/-- The first issue without a text ends the showing. -/
theorem toConsole_of_error {before after : List Issue} {issue : Issue}
    (hissues : f.issues = before ++ issue :: after)
    (hbefore : before.mapM (Issue.text drawing) = .ok texts)
    (hissue : issue.text drawing = .error fault) (exclamation : String) :
    f.toConsole drawing exclamation =
      ⟨"", f.opening exclamation ++ Issue.ruled texts ++ Issue.rule, .error fault⟩ := by
  have hcons : (issue :: after).forM (Issue.toConsole drawing) =
      issue.toConsole drawing >>= fun _ => after.forM (Issue.toConsole drawing) := rfl
  rw [toConsole_eq, hissues, Issue.forM_toConsole_append hbefore, Console.complain_complain_bind,
    Console.complain_bind, hcons, Issue.toConsole_of_error hissue, Console.bind_of_error _ rfl]

end Findings

namespace CommandLine

theorem report_of_accept {host : Host} {d : Document} (h : host.drawing.accept d = .ok ())
    (exclamation : String) (log : List Entry) :
    report host exclamation d log =
      if (addErrors {} d log).isEmpty then pure 0
      else (addErrors {} d log).toConsole host.drawing exclamation >>= fun _ => pure 1 := by
  rw [report, h, Console.ofExcept_ok_bind]

/-- A report fails before the first finding, is shown as a whole, or fails at one finding. -/
theorem report_cases (host : Host) (exclamation : String) (d : Document) (log : List Entry) :
    (∃ fault, host.drawing.accept d = .error fault ∧
      report host exclamation d log = ⟨"", "", .error fault⟩) ∨
    host.drawing.accept d = .ok () ∧
      ((∃ texts, (addErrors {} d log).issues.mapM (Issue.text host.drawing) = .ok texts ∧
        report host exclamation d log =
          ⟨"", (addErrors {} d log).opening exclamation ++ Issue.ruled texts,
            .ok (if (addErrors {} d log).isEmpty then 0 else 1)⟩) ∨
      ∃ before issue after texts fault,
        (addErrors {} d log).issues = before ++ issue :: after ∧
        before.mapM (Issue.text host.drawing) = .ok texts ∧
        issue.text host.drawing = .error fault ∧
        report host exclamation d log =
          ⟨"", (addErrors {} d log).opening exclamation ++ Issue.ruled texts ++ Issue.rule,
            .error fault⟩) := by
  cases haccept : host.drawing.accept d with
  | error fault =>
    refine .inl ⟨fault, rfl, ?_⟩
    rw [report, haccept, Console.ofExcept_error_bind]
    rfl
  | ok _ =>
    refine .inr ⟨rfl, ?_⟩
    rw [report_of_accept haccept]
    generalize addErrors {} d log = f
    rcases mapM_cases (Issue.text host.drawing) f.issues with
      ⟨texts, htexts⟩ | ⟨before, issue, after, texts, fault, hissues, hbefore, hissue⟩
    · refine .inl ⟨texts, htexts, ?_⟩
      by_cases hempty : f.isEmpty = true
      · rw [List.isEmpty_iff.mp hempty] at htexts
        obtain rfl : [] = texts := Except.ok.inj htexts
        rw [if_pos hempty, if_pos hempty, Findings.opening, if_pos hempty]
        rfl
      · rw [if_neg hempty, if_neg hempty, Findings.toConsole_of_ok htexts, Console.complain_bind]
        simp only [pure, Console.ofExcept, String.append_empty]
    · have hempty : f.isEmpty = false := by simp [Findings.isEmpty, hissues]
      refine .inr ⟨before, issue, after, texts, fault, hissues, hbefore, hissue, ?_⟩
      rw [hempty, Findings.toConsole_of_error hissues hbefore hissue,
        Console.bind_of_error _ rfl]
      rfl

section

variable (host : Host) (exclamation : String) (d : Document) (log : List Entry)

/-- A report is on the stream for everything but output. -/
theorem output_report : (report host exclamation d log).output = "" := by
  rcases report_cases host exclamation d log with
    ⟨_, _, h⟩ | ⟨_, ⟨_, _, h⟩ | ⟨_, _, _, _, _, _, _, _, h⟩⟩ <;> rw [h]

/-- A report comes to a status exactly if the host takes the document in and draws every
finding; the status then tells whether there was a finding. -/
theorem result_report_eq_ok_iff (status : Nat) :
    (report host exclamation d log).result = .ok status ↔
      host.drawing.accept d = .ok () ∧
      (∀ issue ∈ (addErrors {} d log).issues, ∃ text, issue.text host.drawing = .ok text) ∧
      status = if (addErrors {} d log).isEmpty then 0 else 1 := by
  rcases report_cases host exclamation d log with
    ⟨fault, haccept, hreport⟩ | ⟨haccept, ⟨texts, htexts, hreport⟩ |
      ⟨before, issue, after, texts, fault, hissues, -, hissue, hreport⟩⟩
  · simp [hreport, haccept]
  · have hall := exists_of_mapM htexts
    rw [hreport, Except.ok.injEq]
    exact ⟨fun h => ⟨haccept, hall, h.symm⟩, fun h => h.2.2.symm⟩
  · constructor
    · intro h
      rw [hreport] at h
      cases h
    · rintro ⟨-, hall, -⟩
      obtain ⟨text, htext⟩ := hall issue (by simp [hissues])
      rw [hissue] at htext
      cases htext

/-- Nothing but the host makes a report fail. -/
theorem exists_of_report_error {fault : Fault}
    (h : (report host exclamation d log).result = .error fault) :
    host.drawing.accept d = .error fault ∨
      ∃ issue ∈ (addErrors {} d log).issues, issue.text host.drawing = .error fault := by
  rcases report_cases host exclamation d log with
    ⟨fault', haccept, hreport⟩ | ⟨-, ⟨texts, -, hreport⟩ |
      ⟨before, issue, after, texts, fault', hissues, -, hissue, hreport⟩⟩
  · rw [hreport] at h
    obtain rfl : fault' = fault := Except.error.inj h
    exact .inl haccept
  · rw [hreport] at h
    cases h
  · rw [hreport] at h
    obtain rfl : fault' = fault := Except.error.inj h
    exact .inr ⟨issue, by simp [hissues], hissue⟩

variable {host d log}

/-- A report that is shown as a whole. -/
theorem errors_report (haccept : host.drawing.accept d = .ok ()) {texts : List String}
    (htexts : (addErrors {} d log).issues.mapM (Issue.text host.drawing) = .ok texts) :
    (report host exclamation d log).errors =
      (addErrors {} d log).opening exclamation ++ Issue.ruled texts := by
  rcases report_cases host exclamation d log with
    ⟨fault, hfault, -⟩ | ⟨-, ⟨texts', htexts', hreport⟩ |
      ⟨before, issue, after, _, fault, hissues, -, hissue, -⟩⟩
  · rw [haccept] at hfault
    cases hfault
  · rw [htexts] at htexts'
    obtain rfl : texts = texts' := Except.ok.inj htexts'
    rw [hreport]
  · obtain ⟨text, htext⟩ := exists_of_mapM htexts issue (by simp [hissues])
    rw [hissue] at htext
    cases htext

end

end CommandLine

end Eel
