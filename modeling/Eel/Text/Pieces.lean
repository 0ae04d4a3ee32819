/-
Cutting text at one separating character, and putting pieces back together.

Every separator cuts, so two in a row leave an empty piece between them, and a text
without separators is a single piece.  `join_pieces` says that cutting loses
nothing.
-/
namespace Eel.Text

/-- The stretches of `cs` between occurrences of `sep`. -/
def pieces (sep : Char) : List Char → List (List Char)
  | [] => [[]]
  | c :: cs =>
    if c = sep then [] :: pieces sep cs
    else
      match pieces sep cs with
      | [] => [[c]]
      | p :: ps => (c :: p) :: ps

/-- The pieces with `sep` between each two neighbours. -/
def join (sep : List Char) : List (List Char) → List Char
  | [] => []
  | [p] => p
  | p :: q :: ps => p ++ sep ++ join sep (q :: ps)

theorem pieces_ne_nil (sep : Char) (cs : List Char) : pieces sep cs ≠ [] := by
  cases cs with
  | nil => simp [pieces]
  | cons c cs =>
    rw [pieces]
    split
    · simp
    · split <;> simp

theorem join_cons_of_ne_nil (sep p : List Char) {ps : List (List Char)} (h : ps ≠ []) :
    join sep (p :: ps) = p ++ sep ++ join sep ps := by
  cases ps with
  | nil => exact absurd rfl h
  | cons q qs => rfl

/-- Cutting at a separator and joining with it gives the text back. -/
theorem join_pieces (sep : Char) (cs : List Char) : join [sep] (pieces sep cs) = cs := by
  induction cs with
  | nil => rfl
  | cons c cs ih =>
    rw [pieces]
    split
    · rename_i h
      rw [join_cons_of_ne_nil _ _ (pieces_ne_nil sep cs), ih, h]
      rfl
    · split
      · rename_i h
        exact absurd h (pieces_ne_nil sep cs)
      · rename_i p ps h
        rw [h] at ih
        cases ps with
        | nil => simpa [join] using ih
        | cons q qs => simpa [join] using ih

/-- The words of a text, cut at every single `sep`. -/
def split (sep : Char) (s : String) : List String :=
  (pieces sep s.toList).map String.ofList

/-- Words put side by side with `sep` between them. -/
def joinWith (sep : String) (ws : List String) : String :=
  String.ofList (join sep.toList (ws.map String.toList))

/-- Splitting and joining at the same character gives the text back. -/
theorem joinWith_split (sep : Char) (s : String) :
    joinWith (String.ofList [sep]) (split sep s) = s := by
  have h : (pieces sep s.toList).map (String.toList ∘ String.ofList) = pieces sep s.toList := by
    conv => rhs; rw [← List.map_id (pieces sep s.toList)]
    refine List.map_congr_left fun p _ => ?_
    simp
  simp only [joinWith, split, List.map_map, h, String.toList_ofList, join_pieces]
  exact String.ofList_toList

end Eel.Text
