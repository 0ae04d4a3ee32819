/-
Names bound to texts, in the order in which they were first bound.

Binding a name again changes its text and keeps its place.  Nothing is ever
removed.  Each name occurs once, which is part of the type.
-/
import Eel.Text.Quoted

namespace Eel

namespace Bindings

/-- Binds `name` in a list of pairs: in place if it is there, at the end if it is not. -/
def put (name value : String) : List (String × String) → List (String × String)
  | [] => [(name, value)]
  | (n, v) :: rest => if n = name then (n, value) :: rest else (n, v) :: put name value rest

theorem keys_put (name value : String) (ps : List (String × String)) :
    (put name value ps).map Prod.fst =
      if name ∈ ps.map Prod.fst then ps.map Prod.fst else ps.map Prod.fst ++ [name] := by
  induction ps with
  | nil => simp [put]
  | cons p rest ih =>
    obtain ⟨n, v⟩ := p
    by_cases h : n = name
    · simp [put, h]
    · have h' : ¬ name = n := fun e => h e.symm
      simp only [put, h, if_false, List.map_cons, ih, List.mem_cons, h', false_or]
      split <;> simp

theorem nodup_put (name value : String) {ps : List (String × String)}
    (h : (ps.map Prod.fst).Nodup) : ((put name value ps).map Prod.fst).Nodup := by
  rw [keys_put]
  split
  · exact h
  · rename_i hn
    rw [List.nodup_append]
    refine ⟨h, by simp, ?_⟩
    intro a ha b hb e
    simp only [List.mem_singleton] at hb
    exact hn (by rw [← hb, ← e]; exact ha)

end Bindings

/-- Names bound to texts, oldest name first. -/
structure Bindings where
  entries : List (String × String)
  nodup : (entries.map Prod.fst).Nodup
deriving DecidableEq, Repr

namespace Bindings

/-- No names bound. -/
def empty : Bindings := ⟨[], List.nodup_nil⟩

instance : EmptyCollection Bindings := ⟨empty⟩

instance : Inhabited Bindings := ⟨empty⟩

/-- The text a name is bound to. -/
def get? (b : Bindings) (name : String) : Option String := b.entries.lookup name

/-- Whether a name is bound. -/
def contains (b : Bindings) (name : String) : Bool := (b.get? name).isSome

/-- The bound names, oldest first. -/
def names (b : Bindings) : List String := b.entries.map Prod.fst

/-- Binds a name. -/
def insert (b : Bindings) (name value : String) : Bindings :=
  ⟨put name value b.entries, nodup_put name value b.nodup⟩

/-- Binds the names of a list of pairs, one after the other. -/
def insertAll (b : Bindings) (ps : List (String × String)) : Bindings :=
  ps.foldl (fun b p => b.insert p.1 p.2) b

/-- Binds all names of `w` over those of `b`. -/
def merge (b w : Bindings) : Bindings := b.insertAll w.entries

/-- The bindings of a list of pairs; of two pairs with one name the later wins. -/
def ofList (ps : List (String × String)) : Bindings := empty.insertAll ps

/-- One name bound. -/
def singleton (name value : String) : Bindings := empty.insert name value

/-- All bindings spelled out. -/
def picture (b : Bindings) : String := Text.quotedPairs b.entries

theorem ext_entries {a b : Bindings} (h : a.entries = b.entries) : a = b := by
  cases a
  cases b
  cases h
  rfl

/-! ### What a binding does to the view -/

theorem lookup_put (name value other : String) (ps : List (String × String)) :
    (put name value ps).lookup other = if other = name then some value else ps.lookup other := by
  induction ps with
  | nil =>
    by_cases h : other = name
    · simp [put, h]
    · simp [put, List.lookup_cons, beq_eq_false_iff_ne.mpr h, h]
  | cons p rest ih =>
    obtain ⟨n, v⟩ := p
    by_cases hn : n = name
    · subst hn
      by_cases h : other = n
      · simp [put, h]
      · simp [put, List.lookup_cons, beq_eq_false_iff_ne.mpr h, h]
    · by_cases ho : other = n
      · subst ho
        simp [put, hn]
      · simp [put, List.lookup_cons, beq_eq_false_iff_ne.mpr ho, hn, ih]

/-- Reading a name after a binding. -/
theorem get?_insert (b : Bindings) (name value other : String) :
    (b.insert name value).get? other = if other = name then some value else b.get? other :=
  lookup_put name value other b.entries

/-- A new name comes last; a known one keeps its place. -/
theorem names_insert (b : Bindings) (name value : String) :
    (b.insert name value).names = if name ∈ b.names then b.names else b.names ++ [name] :=
  keys_put name value b.entries

@[simp] theorem entries_empty : (∅ : Bindings).entries = [] := rfl

@[simp] theorem entries_insert (b : Bindings) (name value : String) :
    (b.insert name value).entries = put name value b.entries := rfl

end Bindings

end Eel
