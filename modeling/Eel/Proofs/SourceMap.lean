/-
Kept lines know where they come from.

The lines are gone through once, with a number and an offset that grow along.  Both count every
line, and the offset counts every character and every line feed, so what is dropped leaves a gap
in the numbers and in the offsets, and nothing is moved.

A kept line is therefore a map back into the source.  The line with its number is the line that
it was trimmed from.  At its offset the source goes on with its text, and the line feeds in front
of that place are those that end the lines above.
-/
import Eel.Proofs.RawLog
import Eel.Proofs.Reporting

namespace Eel

namespace Line

/-! ### Which lines are kept -/

/-- Something stands on the line, and no marker in front of it. -/
def WorthRunning (markers : List String) (source : String) : Prop :=
  Text.trim source.toList ≠ [] ∧ ∀ m ∈ markers, ¬ m.toList <+: Text.trim source.toList

instance (markers : List String) (source : String) : Decidable (WorthRunning markers source) :=
  inferInstanceAs (Decidable (_ ∧ _))

theorem isKept_iff (markers : List String) (source : String) :
    isKept markers (Text.trim source.toList) = true ↔ WorthRunning markers source := by
  simp [isKept, WorthRunning]

/-- Each line that is worth running is kept, with its own number, and no other. -/
theorem map_keptFrom (markers lines : List String) :
    ∀ number offset : Nat,
      (keptFrom markers number offset lines).map (fun l => (l.text.toList, l.number)) =
        ((lines.zipIdx number).filter fun p => WorthRunning markers p.1).map
          fun p => (Text.trim p.1.toList, p.2) := by
  induction lines with
  | nil =>
    intro number offset
    rfl
  | cons line lines ih =>
    intro number offset
    have hlater := ih (number + 1) (offset + line.toList.length + 1)
    simp only [List.zipIdx_cons, List.filter_cons, keptFrom, isKept_iff, decide_eq_true_eq]
    split
    · rw [List.map_cons, List.map_cons, hlater, String.toList_ofList]
    · exact hlater

/-! ### Line feeds in front of a line -/

theorem count_ended {lines : List String} (h : ∀ line ∈ lines, '\n' ∉ line.toList) :
    (ended lines).count '\n' = lines.length := by
  induction lines with
  | nil => rfl
  | cons line lines ih =>
    rw [List.forall_mem_cons] at h
    have hlater := ih h.2
    have hend : ['\n'].count '\n' = 1 := rfl
    rw [ended, List.flatMap_cons, List.count_append, ← ended, hlater, List.count_append,
      List.count_eq_zero.mpr h.1, hend, List.length_cons]
    omega

/-- The number of a kept line tells how many line feeds stand before it. -/
theorem number_eq_count {markers lines : List String} (h : ∀ line ∈ lines, '\n' ∉ line.toList)
    {line : Line} (hline : line ∈ kept markers lines) :
    line.number =
      1 + ((Text.join ['\n'] (lines.map String.toList)).take line.offset).count '\n' := by
  obtain ⟨before, source, after, rfl, hfrom⟩ := exists_of_mem_keptFrom _ _ _ _ line hline
  obtain ⟨back, hjoin⟩ := exists_join_eq before after source
  have htake : (ended before ++ (source.toList ++ back)).take line.offset = ended before ++
      source.toList.take (source.toList.length - (Text.trimLeft source.toList).length) := by
    rw [hfrom.offset_eq, Nat.zero_add, ← length_ended, List.take_length_add_append,
      List.take_append_of_le_length (Nat.sub_le _ _)]
  have hbefore : ∀ line ∈ before, '\n' ∉ line.toList := fun line hmem => h line (by simp [hmem])
  have hsource : '\n' ∉ source.toList.take
      (source.toList.length - (Text.trimLeft source.toList).length) :=
    fun hmem => h source (by simp) (List.mem_of_mem_take hmem)
  rw [hjoin, htake, List.count_append, count_ended hbefore, List.count_eq_zero.mpr hsource,
    hfrom.number_eq, Nat.add_zero]

/-! ### The source map -/

/-- **Kept lines are an exact map of the source.**  Of the lines, counted from one, those that
are worth running are kept, each of them once and in the order of their numbers, and what is kept
of a line is its trimmed text.

In the lines put together, with line feeds between them, the text of a kept line stands at its
offset, and it neither begins nor ends with a blank.  If the lines are those of a text, then put
together they are that text, and as many line feeds stand before a kept line as its number says. -/
theorem kept_source_map (markers lines : List String) :
    (kept markers lines).Pairwise (fun a b => a.number < b.number) ∧
    (kept markers lines).map (fun l => (l.text.toList, l.number)) =
      ((lines.zipIdx 1).filter fun p => WorthRunning markers p.1).map
        (fun p => (Text.trim p.1.toList, p.2)) ∧
    (∀ l ∈ kept markers lines,
      ((Text.joinWith "\n" lines).toList.drop l.offset).take l.text.length = l.text.toList ∧
      (∀ c ∈ l.text.toList.head?, Text.isBlank c = false) ∧
      (∀ c ∈ l.text.toList.getLast?, Text.isBlank c = false)) ∧
    ∀ s : String, (Source.single (.text s)).lines = .ok lines →
      Text.joinWith "\n" lines = s ∧
      ∀ l ∈ kept markers lines, l.number = 1 + (s.toList.take l.offset).count '\n' := by
  have hjoined : (Text.joinWith "\n" lines).toList =
      Text.join ['\n'] (lines.map String.toList) :=
    String.toList_ofList
  refine ⟨pairwise_keptFrom markers lines 1 0, map_keptFrom markers lines 1 0, ?_, ?_⟩
  · intro l hl
    obtain ⟨_, source, _, _, hfrom⟩ := exists_of_mem_keptFrom _ _ _ _ l hl
    rw [hjoined, ← String.length_toList, take_drop_join hl, hfrom.text_eq]
    exact ⟨rfl, (Text.trimmed_trim _).head, (Text.trimmed_trim _).last⟩
  · intro s hs
    obtain rfl : Source.linesOfText s = lines := Except.ok.inj hs
    have hjoin : Text.joinWith "\n" (Source.linesOfText s) = s := Text.joinWith_split '\n' s
    refine ⟨hjoin, fun l hl => ?_⟩
    have honeLine : ∀ line ∈ Source.linesOfText s, '\n' ∉ line.toList := by
      intro line hline
      obtain ⟨piece, hpiece, rfl⟩ := List.mem_map.mp hline
      rw [String.toList_ofList]
      exact Text.not_mem_of_mem_pieces piece hpiece
    rw [number_eq_count honeLine hl, ← hjoined, hjoin]

/-- A wide blank in front of the first line, an empty line and a comment, and no line feed at the
end: the second of the two kept lines is the fourth, behind three line feeds. -/
theorem kept_source_map_fourth :
    (Source.single (.text "\u3000print é \n\n// note\n\t x //y")).lines =
      .ok ["\u3000print é ", "", "// note", "\t x //y"] ∧
    ⟨4, 21, "x //y"⟩ ∈ kept ["//"] ["\u3000print é ", "", "// note", "\t x //y"] ∧
    ("\u3000print é \n\n// note\n\t x //y".toList.drop 21).take 5 = "x //y".toList ∧
    4 = 1 + ("\u3000print é \n\n// note\n\t x //y".toList.take 21).count '\n' := by
  have hlines : (Source.single (.text "\u3000print é \n\n// note\n\t x //y")).lines =
      .ok ["\u3000print é ", "", "// note", "\t x //y"] := rfl
  have hkept : ⟨4, 21, "x //y"⟩ ∈ kept ["//"] ["\u3000print é ", "", "// note", "\t x //y"] := by
    decide
  obtain ⟨-, -, hslices, htext⟩ :=
    kept_source_map ["//"] ["\u3000print é ", "", "// note", "\t x //y"]
  obtain ⟨hjoined, hnumbers⟩ := htext _ hlines
  have hslice := (hslices _ hkept).1
  rw [hjoined] at hslice
  exact ⟨hlines, hkept, hslice, hnumbers _ hkept⟩

end Line
end Eel
