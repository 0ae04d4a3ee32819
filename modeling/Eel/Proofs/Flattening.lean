/-
Compositions inside compositions.

The outcome of an evaluation is composed of those of the evaluations nested in it, and each of
these is composed in its turn.  `compose_flatten` says that the nesting leaves no mark: the
outcome is the one that all of them give in a single row.

What a row writes can be read off its writes, one after the other.  Bound into an environment,
the texts are the last ones written, and the names stand where they were first bound: those
of the environment in their old order, and behind them the new ones in the order in which they
come up.
-/
import Eel.Environment
import Eel.Proofs.Merging

namespace Eel

namespace Bindings

/-! ### Binding a list of pairs -/

theorem insertAll_append (b : Bindings) (ps qs : List (String × String)) :
    b.insertAll (ps ++ qs) = (b.insertAll ps).insertAll qs := by
  rw [insertAll, insertAll, insertAll, List.foldl_append]

/-- The last text written for a name is the one that it is bound to. -/
theorem get?_insertAll (b : Bindings) (ps : List (String × String)) (name : String) :
    (b.insertAll ps).get? name = (ps.reverse.lookup name).or (b.get? name) := by
  induction ps generalizing b with
  | nil => rfl
  | cons p rest ih =>
    obtain ⟨n, v⟩ := p
    have hlater : (b.insertAll ((n, v) :: rest)).get? name =
        (rest.reverse.lookup name).or ((b.insert n v).get? name) := ih _
    rw [hlater, get?_insert, List.reverse_cons, List.lookup_append, Option.or_assoc,
      List.lookup_singleton]
    by_cases h : name = n
    · simp [h]
    · simp [h]

/-- Names that are there keep their places, and the others come behind them as they come up. -/
theorem names_insertAll (b : Bindings) (ps : List (String × String)) :
    (b.insertAll ps).names = b.names ++ ((ps.map Prod.fst).removeAll b.names).eraseDups := by
  induction ps generalizing b with
  | nil => simp [insertAll]
  | cons p rest ih =>
    obtain ⟨n, v⟩ := p
    have hlater : (b.insertAll ((n, v) :: rest)).names =
        (b.insert n v).names ++
          ((rest.map Prod.fst).removeAll (b.insert n v).names).eraseDups := ih _
    rw [hlater, names_insert, List.map_cons, List.cons_removeAll]
    by_cases h : n ∈ b.names
    · simp [h]
    · have hnew : (rest.map Prod.fst).removeAll (b.names ++ [n]) =
          ((rest.map Prod.fst).removeAll b.names).filter fun m => !m == n := by
        simp only [List.removeAll, List.filter_filter]
        refine List.filter_congr fun m _ => ?_
        simp [Bool.and_comm, Bool.beq_eq_decide_eq]
      simp [h, hnew, List.eraseDups_cons]

end Bindings

namespace Outcome

/-! ### What a row writes -/

/-- The writes of a row of outcomes, one after the other. -/
def written (row : List Outcome) : List (String × String) := row.flatMap fun o => o.writes.entries

theorem foldl_merge_writes (row : List Outcome) (b : Bindings) :
    row.foldl (fun w o => w.merge o.writes) b = b.insertAll (written row) := by
  induction row generalizing b with
  | nil => rfl
  | cons o row ih =>
    have hwritten : written (o :: row) = o.writes.entries ++ written row := List.flatMap_cons
    rw [List.foldl_cons, ih, hwritten, Bindings.insertAll_append]
    rfl

/-- What a row comes to writes the same as its outcomes do, one after the other. -/
theorem merge_writes_total (env : Environment) (row : List Outcome) :
    env.merge (total row).writes = env.insertAll (written row) := by
  calc env.merge (total row).writes
      = env.merge ((∅ : Bindings).insertAll (written row)) := by
        rw [writes_total, foldl_merge_writes]
    _ = (env.insertAll (∅ : Bindings).entries).insertAll (written row) :=
        (Bindings.insertAll_insertAll env ∅ (written row)).symm
    _ = env.insertAll (written row) := rfl

/--
**A composition inside a composition can be spread out.**  The outcome is the same, and so is
what it does to an environment: every write of the row is made in its turn, so that the last
text of a name stays and a new name comes behind all that came up before it.
-/
theorem compose_flatten (before parts after : List Outcome) (whole own : Outcome) :
    compose (before ++ [compose parts whole] ++ after) own =
      compose (before ++ parts ++ [whole] ++ after) own ∧
    ∀ env : Environment,
      env.merge (compose (before ++ [compose parts whole] ++ after) own).writes =
        env.insertAll (written (before ++ parts ++ [whole] ++ after ++ [own])) ∧
      (∀ name,
        (env.merge (compose (before ++ [compose parts whole] ++ after) own).writes).get? name =
          ((written (before ++ parts ++ [whole] ++ after ++ [own])).reverse.lookup name).or
            (env.get? name)) ∧
      (env.merge (compose (before ++ [compose parts whole] ++ after) own).writes).names =
        env.names ++
          (((written (before ++ parts ++ [whole] ++ after ++ [own])).map Prod.fst).removeAll
            env.names).eraseDups := by
  have hflat : compose (before ++ [compose parts whole] ++ after) own =
      compose (before ++ parts ++ [whole] ++ after) own := by
    have hne : parts ++ [whole] ≠ [] := by simp
    have hrow := total_flatten before (after ++ [own]) hne
    simpa only [compose_eq_total, List.append_assoc, List.cons_append, List.nil_append] using hrow
  refine ⟨hflat, fun env => ?_⟩
  have hwrites : env.merge (compose (before ++ [compose parts whole] ++ after) own).writes =
      env.insertAll (written (before ++ parts ++ [whole] ++ after ++ [own])) := by
    rw [hflat, compose_eq_total, merge_writes_total]
  refine ⟨hwrites, fun name => ?_, ?_⟩
  · rw [hwrites, Bindings.get?_insertAll]
  · rw [hwrites, Bindings.names_insertAll]

end Outcome

end Eel
