/-
Merging bindings and composing outcomes, done in any grouping.

A binding that is written again keeps its place, so the order of names after a merge
depends on which name came first, and the texts depend on which came last.  Both
survive a change of grouping: `merge_assoc` says so for bindings.

For outcomes the same holds with one reservation.  The value of a composition is that
of its last part, so an empty row of parts is not neutral.  A row that is not empty
can be replaced by what it comes to, anywhere in a longer row, and that is
`total_flatten`.
-/
import Eel.Outcome

namespace Eel

namespace Bindings

/-! ### Binding two names in a list of pairs -/

/-- Of two texts for one name the later stays. -/
theorem put_put_self (name first second : String) (ps : List (String × String)) :
    put name second (put name first ps) = put name second ps := by
  induction ps with
  | nil => simp [put]
  | cons p rest ih =>
    obtain ⟨n, v⟩ := p
    by_cases h : n = name
    · simp [put, h]
    · simp only [put, h, if_false, ih]

/-- A name that has its place already can be bound before or after another one. -/
theorem put_put_comm {name other : String} (hne : name ≠ other) (value text : String) :
    ∀ {ps : List (String × String)}, name ∈ ps.map Prod.fst →
      put name value (put other text ps) = put other text (put name value ps) := by
  intro ps
  induction ps with
  | nil => intro hmem; simp at hmem
  | cons p rest ih =>
    intro hmem
    obtain ⟨n, v⟩ := p
    by_cases hn : n = name
    · simp only [put, hn, hne, if_true, if_false]
    · have hrest : name ∈ rest.map Prod.fst := by
        rcases List.mem_cons.mp hmem with e | h
        · exact absurd e.symm hn
        · exact h
      by_cases ho : n = other
      · simp only [put, ho, if_true, if_neg (fun e => hn (ho.trans e))]
      · simp only [put, hn, ho, if_false, ih hrest]

/-! ### Binding a name before or after a whole list -/

theorem names_insertAll_of_mem {b : Bindings} {name : String} (h : name ∈ b.names) :
    ∀ ps : List (String × String), name ∈ (b.insertAll ps).names := by
  intro ps
  induction ps generalizing b with
  | nil => exact h
  | cons p rest ih =>
    refine ih ?_
    rw [names_insert]
    split
    · exact h
    · exact List.mem_append_left _ h

theorem insert_insert_self (b : Bindings) (name first second : String) :
    (b.insert name first).insert name second = b.insert name second :=
  ext_entries (put_put_self name first second b.entries)

/-- A name with its place is bound last or first, as long as the list leaves it alone. -/
theorem insertAll_insert_comm {name : String} (value : String) :
    ∀ {ps : List (String × String)} {b : Bindings}, name ∉ ps.map Prod.fst → name ∈ b.names →
      (b.insertAll ps).insert name value = (b.insert name value).insertAll ps := by
  intro ps
  induction ps with
  | nil => intro b _ _; rfl
  | cons p rest ih =>
    intro b hps hb
    obtain ⟨n, v⟩ := p
    have hne : name ≠ n := fun e => hps (by simp [e])
    have hrest : name ∉ rest.map Prod.fst := fun h => hps (by simp [h])
    have hplace : name ∈ (b.insert n v).names := names_insertAll_of_mem hb [(n, v)]
    have hswap : (b.insert n v).insert name value = (b.insert name value).insert n v :=
      ext_entries (put_put_comm hne value v hb)
    calc ((b.insert n v).insertAll rest).insert name value
        = ((b.insert n v).insert name value).insertAll rest := ih hrest hplace
      _ = ((b.insert name value).insert n v).insertAll rest := by rw [hswap]

/-- Binding a name in the list that is merged, or after merging it. -/
theorem insertAll_put (name value : String) :
    ∀ {ps : List (String × String)} (b : Bindings), (ps.map Prod.fst).Nodup →
      b.insertAll (put name value ps) = (b.insertAll ps).insert name value := by
  intro ps
  induction ps with
  | nil => intro b _; rfl
  | cons p rest ih =>
    intro b hps
    obtain ⟨n, v⟩ := p
    obtain ⟨hn, hrest⟩ := List.nodup_cons.mp hps
    by_cases h : n = name
    · subst h
      have hplace : n ∈ (b.insert n v).names := by
        rw [names_insert]
        split
        · assumption
        · simp
      have hlast := insertAll_insert_comm value hn hplace
      rw [insert_insert_self] at hlast
      simp only [put, if_true]
      exact hlast.symm
    · simp only [put, h, if_false]
      exact ih (b.insert n v) hrest

/-- Two lists of pairs can be bound one after the other or the second over the first. -/
theorem insertAll_insertAll (a b : Bindings) (ps : List (String × String)) :
    (a.insertAll b.entries).insertAll ps = a.insertAll (b.insertAll ps).entries := by
  induction ps generalizing b with
  | nil => rfl
  | cons p rest ih =>
    have hput := insertAll_put p.1 p.2 a b.nodup
    calc ((a.insertAll b.entries).insert p.1 p.2).insertAll rest
        = (a.insertAll (b.insert p.1 p.2).entries).insertAll rest := by
          rw [entries_insert, hput]
      _ = a.insertAll ((b.insert p.1 p.2).insertAll rest).entries := ih (b.insert p.1 p.2)

/-- **Merging is associative**, in the texts and in the order of the names. -/
theorem merge_assoc (a b c : Bindings) : (a.merge b).merge c = a.merge (b.merge c) :=
  insertAll_insertAll a b c.entries

/-! ### Merging into nothing -/

theorem put_of_not_mem {name : String} (value : String) {ps : List (String × String)}
    (h : name ∉ ps.map Prod.fst) : put name value ps = ps ++ [(name, value)] := by
  induction ps with
  | nil => rfl
  | cons p rest ih =>
    obtain ⟨n, v⟩ := p
    have hne : n ≠ name := fun e => h (by simp [e])
    have hrest : name ∉ rest.map Prod.fst := fun hmem => h (by simp [hmem])
    simp only [put, hne, if_false, ih hrest, List.cons_append]

/-- Names that are all new come behind those that are there. -/
theorem entries_insertAll {ps : List (String × String)} :
    ∀ {b : Bindings}, ((b.entries ++ ps).map Prod.fst).Nodup →
      (b.insertAll ps).entries = b.entries ++ ps := by
  induction ps with
  | nil =>
    intro b _
    simp [insertAll]
  | cons p rest ih =>
    intro b h
    have hnew : p.1 ∉ b.entries.map Prod.fst := by
      rw [List.map_append, List.nodup_append] at h
      exact fun hmem => h.2.2 p.1 hmem p.1 (by simp) rfl
    have hentries : (b.insert p.1 p.2).entries = b.entries ++ [p] :=
      put_of_not_mem p.2 hnew
    have hlater := ih (b := b.insert p.1 p.2) (by rw [hentries]; simpa using h)
    rw [hentries, List.append_assoc] at hlater
    exact hlater

theorem empty_merge (w : Bindings) : (∅ : Bindings).merge w = w :=
  ext_entries (entries_insertAll (b := ∅) (by simpa using w.nodup))

end Bindings

namespace Outcome

/-! ### Rows of outcomes -/

/-- A composition without parts is what the whole does itself. -/
theorem compose_nil (own : Outcome) : compose [] own = own := by
  simp [compose, append, Bindings.empty_merge]

theorem append_assoc (a b c : Outcome) : (a.append b).append c = a.append (b.append c) := by
  simp only [append, List.append_assoc, Bool.or_assoc, Bindings.merge_assoc]

/-- What a row of outcomes comes to. -/
def total (row : List Outcome) : Outcome := row.foldl append {}

theorem compose_eq_total (parts : List Outcome) (own : Outcome) :
    compose parts own = total (parts ++ [own]) := rfl

theorem foldl_append_append (first second : Outcome) (row : List Outcome) :
    row.foldl append (first.append second) = first.append (row.foldl append second) := by
  induction row generalizing second with
  | nil => rfl
  | cons o row ih => rw [List.foldl_cons, List.foldl_cons, append_assoc, ih]

/-- An outcome in front of a row is an outcome in front of what the row comes to. -/
theorem foldl_append_eq (first : Outcome) {row : List Outcome} (h : row ≠ []) :
    row.foldl append first = first.append (total row) := by
  cases row with
  | nil => exact absurd rfl h
  | cons o row =>
    have hempty : first.append (Outcome.append {} o) = first.append o := by
      rw [← append_assoc]
      simp [append, Bindings.merge, Bindings.insertAll]
    rw [List.foldl_cons, total, List.foldl_cons, ← foldl_append_append, hempty]

/-- **A row inside a row can be replaced by what it comes to.** -/
theorem total_flatten (before after : List Outcome) {row : List Outcome} (h : row ≠ []) :
    total (before ++ total row :: after) = total (before ++ row ++ after) := by
  have hrow : total (before ++ row) = (total before).append (total row) := by
    rw [total, List.foldl_append]
    exact foldl_append_eq _ h
  calc total (before ++ total row :: after)
      = after.foldl append ((total before).append (total row)) := by
        rw [total, List.foldl_append, List.foldl_cons]
        rfl
    _ = after.foldl append (total (before ++ row)) := by rw [hrow]
    _ = total (before ++ row ++ after) := by
        rw [total, total, ← List.foldl_append]

/-! ### A row field by field -/

theorem log_total (row : List Outcome) : (total row).log = row.flatMap log := by
  rw [total, foldl_append_log]
  rfl

theorem halt_total (row : List Outcome) : (total row).halt = row.any halt := by
  rw [total, foldl_append_halt]
  rfl

theorem foldl_append_writes (row : List Outcome) (first : Outcome) :
    (row.foldl append first).writes = row.foldl (fun w o => w.merge o.writes) first.writes := by
  induction row generalizing first with
  | nil => rfl
  | cons o row ih => rw [List.foldl_cons, ih, List.foldl_cons, append]

/-- The writes of a row, each over the ones before it. -/
theorem writes_total (row : List Outcome) :
    (total row).writes = row.foldl (fun w o => w.merge o.writes) ∅ :=
  foldl_append_writes row {}

end Outcome

end Eel
