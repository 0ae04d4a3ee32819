/-
What is left when the blanks at both ends of a text are cut off.

A trimmed text neither begins nor ends with a blank, and putting blanks back in front of it
and behind it gives the text it was cut from.  These two facts fix it: of blanks, a text with
no blank at either end, and blanks, that text is what is left.
-/
import Eel.Text.Blank
import Mathlib.Data.List.TakeWhile

namespace Eel.Text

/-- Nothing but blanks. -/
def AllBlank (cs : List Char) : Prop := ∀ c ∈ cs, isBlank c = true

/-- No blank at either end. -/
structure Trimmed (cs : List Char) : Prop where
  head : ∀ c ∈ cs.head?, isBlank c = false
  last : ∀ c ∈ cs.getLast?, isBlank c = false

theorem Trimmed.of_not_blank {cs : List Char} (h : ∀ c ∈ cs, isBlank c = false) : Trimmed cs :=
  ⟨fun c hc => h c (List.mem_of_head? hc), fun c hc => h c (List.mem_of_getLast? hc)⟩

theorem allBlank_takeWhile (cs : List Char) : AllBlank (cs.takeWhile isBlank) :=
  fun c hc => List.all_eq_true.mp (List.all_takeWhile (l := cs)) c hc

/-- A text is the blanks in front of it, what is trimmed on the left, and nothing else. -/
theorem exists_trimLeft (cs : List Char) :
    ∃ before, AllBlank before ∧ cs = before ++ trimLeft cs :=
  ⟨_, allBlank_takeWhile cs, List.takeWhile_append_dropWhile.symm⟩

theorem exists_trimRight (cs : List Char) :
    ∃ after, AllBlank after ∧ cs = trimRight cs ++ after := by
  refine ⟨(cs.reverse.takeWhile isBlank).reverse, ?_, ?_⟩
  · intro c hc
    exact allBlank_takeWhile cs.reverse c (List.mem_reverse.mp hc)
  · rw [trimRight, ← List.reverse_append, List.takeWhile_append_dropWhile, List.reverse_reverse]

/-- A text is its trimmed text with blanks around it. -/
theorem exists_trim (cs : List Char) :
    ∃ before after, AllBlank before ∧ AllBlank after ∧ cs = before ++ trim cs ++ after := by
  obtain ⟨before, hbefore, hleft⟩ := exists_trimLeft cs
  obtain ⟨after, hafter, hright⟩ := exists_trimRight (trimLeft cs)
  exact ⟨before, after, hbefore, hafter, by rw [List.append_assoc, trim, ← hright, ← hleft]⟩

theorem trimLeft_eq_drop (cs : List Char) :
    cs.drop (cs.length - (trimLeft cs).length) = trimLeft cs :=
  (List.suffix_iff_eq_drop.mp (List.dropWhile_suffix isBlank)).symm

theorem trim_isPrefix (cs : List Char) : trim cs <+: trimLeft cs := by
  obtain ⟨after, -, hright⟩ := exists_trimRight (trimLeft cs)
  exact ⟨after, hright.symm⟩

theorem mem_of_mem_trim {c : Char} {cs : List Char} (h : c ∈ trim cs) : c ∈ cs := by
  obtain ⟨before, after, -, -, hcs⟩ := exists_trim cs
  rw [hcs]
  simp [h]

/-- No blank is left in front, and none behind. -/
theorem trimmed_trim (cs : List Char) : Trimmed (trim cs) := by
  constructor
  · intro c hc
    obtain ⟨back, hback⟩ := trim_isPrefix cs
    have hhead : (trimLeft cs).head? = some c := by
      rw [← hback, List.head?_append, Option.mem_def.mp hc, Option.some_or]
    have hstop := List.head?_dropWhile_not isBlank cs
    rwa [← trimLeft, hhead] at hstop
  · intro c hc
    have hstop := List.head?_dropWhile_not isBlank (trimLeft cs).reverse
    rw [trim, trimRight, List.getLast?_reverse, Option.mem_def] at hc
    rwa [hc] at hstop

theorem trimLeft_of_head {cs : List Char} (h : ∀ c ∈ cs.head?, isBlank c = false) :
    trimLeft cs = cs := by
  cases cs with
  | nil => rfl
  | cons c cs => exact List.dropWhile_cons_of_neg (by simp [h c rfl])

theorem Trimmed.trimRight_eq {cs : List Char} (h : Trimmed cs) : trimRight cs = cs := by
  have hright : cs.reverse.dropWhile isBlank = cs.reverse :=
    trimLeft_of_head (by rw [List.head?_reverse]; exact h.last)
  rw [trimRight, hright, List.reverse_reverse]

/-- Of a text with no blank at either end and blanks around it, the text is left. -/
theorem Trimmed.trim_eq {before cs after : List Char} (h : Trimmed cs) (hbefore : AllBlank before)
    (hafter : AllBlank after) : trim (before ++ cs ++ after) = cs := by
  have hright : ∀ cs, trimRight (cs ++ after) = trimRight cs := by
    intro cs
    rw [trimRight, List.reverse_append,
      List.dropWhile_append_of_pos fun c hc => hafter c (List.mem_reverse.mp hc), ← trimRight]
  have hleft : trimLeft (before ++ (cs ++ after)) = trimLeft (cs ++ after) :=
    List.dropWhile_append_of_pos hbefore
  rw [List.append_assoc, trim, hleft]
  cases cs with
  | nil =>
    have hnone : trimLeft ([] ++ after) = [] := List.dropWhile_eq_nil_iff.mpr hafter
    rw [hnone]
    rfl
  | cons c cs =>
    rw [trimLeft_of_head (by simpa using h.head), hright, h.trimRight_eq]

theorem Trimmed.trim_self {cs : List Char} (h : Trimmed cs) : trim cs = cs := by
  have htrim : trim ([] ++ cs ++ []) = cs :=
    h.trim_eq (List.forall_mem_nil _) (List.forall_mem_nil _)
  rwa [List.nil_append, List.append_nil] at htrim

end Eel.Text
