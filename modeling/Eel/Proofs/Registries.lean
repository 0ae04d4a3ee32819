/-
What registries know after any number of definitions and freezes.

A registry and the frozen ones that are made of it stand on a shelf, each at its place.  An
operation defines a command in one of them or puts a frozen one at the end of the shelf.
Definitions are made, or refused, at any place and at any time.

Everything rests on one property of the list of commands: no name occurs twice.  `distinct_apply`
is the step that keeps it.  From it come all the answers, since the first command with a
name is then the only one.  `getElem?_run` says what becomes of the registry at a place:
commands come behind those that are there, and they are the ones accepted at that place.
-/
import Eel.Builtin.Catalogue

namespace Eel

namespace Registry

/-! ### Questions -/

/-- What a registry can be asked. -/
inductive Query where
  | get (name : String)
  | operator (name : String)
  | comment (name : String)
  | plain (name : String)
  | contains (name : String)
  | size
  | commands
  | commentMarkers

/-- What it answers. -/
inductive Reply where
  | command (c : Option Command)
  | known (b : Bool)
  | count (n : Nat)
  | commands (cs : List Command)
  | names (names : List String)

/-- The answer to a question. -/
def reply (r : Registry) : Query → Reply
  | .get name => .command (r.get? name)
  | .operator name => .command (r.operator? name)
  | .comment name => .command (r.comment? name)
  | .plain name => .command (r.plain? name)
  | .contains name => .known (r.contains name)
  | .size => .count r.size
  | .commands => .commands r.commands
  | .commentMarkers => .names r.commentMarkers

/-- A frozen registry answers like the one that it was made of. -/
theorem reply_freeze (r : Registry) (q : Query) : r.freeze.reply q = r.reply q := by
  cases q <;> rfl

/-! ### Registries without duplicates -/

/-- No two commands have the same name. -/
def Distinct (r : Registry) : Prop := (r.commands.map (·.name)).Nodup

variable {r : Registry}

theorem contains_iff (r : Registry) (name : String) :
    r.contains name = true ↔ name ∈ r.commands.map (·.name) := by
  simp only [contains, get?, List.find?_isSome, List.mem_map, beq_iff_eq]

/-- The ways in which a definition can go. -/
theorem define_cases (r : Registry) (c : Command) :
    (r.contains c.name = true ∧ r.define c = .error (.alreadyDefined c.name)) ∨
    (r.contains c.name = false ∧ r.frozen = true ∧ r.define c = .error .registryFrozen) ∨
    (r.contains c.name = false ∧ r.frozen = false ∧
      r.define c = .ok { r with commands := r.commands ++ [c] }) := by
  unfold define
  cases r.contains c.name with
  | true => exact .inl ⟨rfl, rfl⟩
  | false =>
    cases r.frozen with
    | true => exact .inr (.inl ⟨rfl, rfl, rfl⟩)
    | false => exact .inr (.inr ⟨rfl, rfl, rfl⟩)

/-- A command with a new name can come behind the others. -/
theorem Distinct.concat (h : r.Distinct) {c : Command} (hnew : r.contains c.name = false) :
    Distinct { r with commands := r.commands ++ [c] } := by
  have hname : c.name ∉ r.commands.map (·.name) := by
    rw [← contains_iff, hnew]
    exact Bool.false_ne_true
  simp only [Distinct, List.map_append, List.map_cons, List.map_nil]
  refine List.nodup_append.mpr ⟨h, by simp, fun a ha b hb hab => hname ?_⟩
  rwa [← List.mem_singleton.mp hb, ← hab]

/-- Where names are distinct, a command is found under its name. -/
theorem Distinct.get?_of_mem (h : r.Distinct) {c : Command} (hc : c ∈ r.commands) :
    r.get? c.name = some c := by
  obtain ⟨before, after, hsplit⟩ := List.append_of_mem hc
  rw [get?, List.find?_eq_some_iff_append]
  refine ⟨by simp, before, after, hsplit, fun d hd => ?_⟩
  rw [Distinct, hsplit, List.map_append, List.map_cons, List.nodup_append] at h
  simpa using h.2.2 d.name (List.mem_map_of_mem hd) c.name (by simp)

theorem Distinct.get?_eq_some_iff (h : r.Distinct) {name : String} {c : Command} :
    r.get? name = some c ↔ c ∈ r.commands ∧ c.name = name := by
  constructor
  · intro hget
    exact ⟨List.mem_of_find?_eq_some hget, name_of_get? hget⟩
  · rintro ⟨hc, rfl⟩
    exact h.get?_of_mem hc

/-- A command is an operator, a comment marker or plain, and nothing else besides. -/
theorem one_role (c : Command) :
    (c.isDyadic, c.isComment, c.isPlain) = (true, false, false) ∨
    (c.isDyadic, c.isComment, c.isPlain) = (false, true, false) ∨
    (c.isDyadic, c.isComment, c.isPlain) = (false, false, true) := by
  unfold Command.isDyadic Command.isPlain
  cases c.isOperator <;> cases c.isComment <;> decide

/-- The answers of a registry fit together. -/
structure Consistent (r : Registry) : Prop where
  /-- A name leads to the one command on the list that has it. -/
  get?_iff : ∀ name c, r.get? name = some c ↔ c ∈ r.commands ∧ c.name = name
  /-- No name is listed twice. -/
  distinct : (r.commands.map (·.name)).Nodup
  size_eq : r.size = r.commands.length
  known_iff : ∀ name, r.contains name = true ↔ name ∈ r.commands.map (·.name)
  /-- A known name is that of an operator, of a comment marker or of a plain command. -/
  one_answers : ∀ name c, r.get? name = some c →
    (r.operator? name = some c ∧ r.comment? name = none ∧ r.plain? name = none) ∨
    (r.operator? name = none ∧ r.comment? name = some c ∧ r.plain? name = none) ∨
    (r.operator? name = none ∧ r.comment? name = none ∧ r.plain? name = some c)
  none_answers : ∀ name, r.contains name = false →
    r.get? name = none ∧ r.operator? name = none ∧ r.comment? name = none ∧ r.plain? name = none
  commentMarkers_eq : r.commentMarkers =
    (r.commands.map (·.name)).filter fun name => (r.comment? name).isSome
  refuses_known : ∀ c, (∃ refusal, r.define c = .error refusal ∧ refusal.kind = "AlreadyExists") ↔
    r.contains c.name = true
  refuses_frozen : ∀ c, (∃ refusal, r.define c = .error refusal ∧ refusal.kind = "TypeError") ↔
    r.contains c.name = false ∧ r.frozen = true
  defines_other : ∀ c, r.contains c.name = false → r.frozen = false →
    r.define c = .ok { r with commands := r.commands ++ [c] }

theorem one_answers_of_get? {name : String} {c : Command} (h : r.get? name = some c) :
    (r.operator? name = some c ∧ r.comment? name = none ∧ r.plain? name = none) ∨
    (r.operator? name = none ∧ r.comment? name = some c ∧ r.plain? name = none) ∨
    (r.operator? name = none ∧ r.comment? name = none ∧ r.plain? name = some c) := by
  simp only [operator?, comment?, plain?, h, Option.filter_some]
  rcases one_role c with hrole | hrole | hrole <;>
    simp only [Prod.mk.injEq] at hrole <;> simp [hrole]

theorem Distinct.commentMarkers_eq (h : r.Distinct) :
    r.commentMarkers = (r.commands.map (·.name)).filter fun name => (r.comment? name).isSome := by
  rw [commentMarkers, List.filter_map]
  congr 1
  refine List.filter_congr fun c hc => ?_
  simp only [Function.comp, comment?, h.get?_of_mem hc, Option.filter_some]
  cases c.isComment <;> rfl

theorem Distinct.consistent (h : r.Distinct) : r.Consistent where
  get?_iff name c := h.get?_eq_some_iff
  distinct := h
  size_eq := rfl
  known_iff := r.contains_iff
  one_answers name c := one_answers_of_get?
  none_answers name hnone := by
    have hget : r.get? name = none := by simpa [contains] using hnone
    simp [operator?, comment?, plain?, hget]
  commentMarkers_eq := h.commentMarkers_eq
  refuses_known c := by
    rcases r.define_cases c with ⟨hknown, hd⟩ | ⟨hnew, hfrozen, hd⟩ | ⟨hnew, hopen, hd⟩ <;>
      simp_all [Refusal.kind]
  refuses_frozen c := by
    rcases r.define_cases c with ⟨hknown, hd⟩ | ⟨hnew, hfrozen, hd⟩ | ⟨hnew, hopen, hd⟩ <;>
      simp_all [Refusal.kind]
  defines_other c hnew hopen := by
    rw [Registry.define, hnew, hopen]
    rfl

end Registry

/-! ### Operations on a shelf -/

/-- Registries side by side, each at its place. -/
abbrev Shelf := List Registry

namespace Shelf

/-- What can be done to the registries on a shelf. -/
inductive Operation where
  /-- Defines a command in the registry at a place. -/
  | define (place : Nat) (c : Command)
  /-- Freezes the registry at a place; the frozen one comes last on the shelf. -/
  | freeze (place : Nat)

/-- The shelf after an operation; a refused definition changes nothing. -/
def apply (shelf : Shelf) : Operation → Shelf
  | .define i c =>
    match shelf[i]? with
    | none => shelf
    | some r =>
      match r.define c with
      | .error _ => shelf
      | .ok r' => shelf.set i r'
  | .freeze i =>
    match shelf[i]? with
    | none => shelf
    | some r => shelf ++ [r.freeze]

/-- The command that an operation defines at a place, if it does. -/
def acceptedBy (shelf : Shelf) (place : Nat) : Operation → List Command
  | .define i c =>
    match shelf[i]? with
    | none => []
    | some r =>
      match r.define c with
      | .error _ => []
      | .ok _ => if i = place then [c] else []
  | .freeze _ => []

/-- The shelf after some operations. -/
def run (shelf : Shelf) (ops : List Operation) : Shelf := ops.foldl apply shelf

/-- The commands that operations define at a place, in the order of the operations. -/
def accepted (shelf : Shelf) (place : Nat) : List Operation → List Command
  | [] => []
  | op :: ops => shelf.acceptedBy place op ++ (shelf.apply op).accepted place ops

variable {shelf : Shelf}

/-- A refused definition leaves the shelf as it is. -/
theorem apply_of_refused {i : Nat} {r : Registry} {c : Command} {refusal : Refusal}
    (hr : shelf[i]? = some r) (h : r.define c = .error refusal) :
    shelf.apply (.define i c) = shelf := by
  simp only [apply, hr, h]

theorem apply_freeze {i : Nat} {r : Registry} (hr : shelf[i]? = some r) :
    shelf.apply (.freeze i) = shelf ++ [r.freeze] := by
  simp only [apply, hr]

/-- An operation changes nothing, puts a frozen registry last, or defines a new command. -/
theorem apply_cases (shelf : Shelf) (op : Operation) :
    (shelf.apply op = shelf ∧ ∀ place, shelf.acceptedBy place op = []) ∨
    (∃ (i : Nat) (r : Registry), shelf[i]? = some r ∧ shelf.apply op = shelf ++ [r.freeze] ∧
      ∀ place, shelf.acceptedBy place op = []) ∨
    ∃ (i : Nat) (r : Registry) (c : Command), shelf[i]? = some r ∧ r.contains c.name = false ∧
      r.frozen = false ∧
      shelf.apply op = shelf.set i { r with commands := r.commands ++ [c] } ∧
      ∀ place, shelf.acceptedBy place op = if i = place then [c] else [] := by
  cases op with
  | freeze i =>
    cases hr : shelf[i]? with
    | none => exact .inl ⟨by simp only [apply, hr], fun _ => rfl⟩
    | some r => exact .inr (.inl ⟨i, r, hr, apply_freeze hr, fun _ => rfl⟩)
  | define i c =>
    cases hr : shelf[i]? with
    | none => exact .inl ⟨by simp only [apply, hr], fun _ => by simp only [acceptedBy, hr]⟩
    | some r =>
      rcases r.define_cases c with ⟨-, hd⟩ | ⟨-, -, hd⟩ | ⟨hnew, hopen, hd⟩
      · exact .inl ⟨apply_of_refused hr hd, fun _ => by simp only [acceptedBy, hr, hd]⟩
      · exact .inl ⟨apply_of_refused hr hd, fun _ => by simp only [acceptedBy, hr, hd]⟩
      · exact .inr (.inr ⟨i, r, c, hr, hnew, hopen, by simp only [apply, hr, hd],
          fun _ => by simp only [acceptedBy, hr, hd]⟩)

/-- What an operation does to the registry at a place. -/
theorem getElem?_apply {place : Nat} {r : Registry} (hr : shelf[place]? = some r)
    (op : Operation) :
    (shelf.apply op)[place]? =
      some { r with commands := r.commands ++ shelf.acceptedBy place op } := by
  obtain ⟨hplace, -⟩ := List.getElem?_eq_some_iff.mp hr
  rcases shelf.apply_cases op with ⟨happly, hnone⟩ | ⟨i, r', -, happly, hnone⟩ |
    ⟨i, r', c, hr', -, -, happly, hone⟩
  · simp [happly, hnone, hr]
  · rw [happly, List.getElem?_append_left hplace, hr, hnone, List.append_nil]
  · rw [happly, hone]
    by_cases hsame : i = place
    · subst hsame
      obtain rfl : r' = r := Option.some.inj (hr'.symm.trans hr)
      rw [List.getElem?_set_self hplace, if_pos rfl]
    · rw [List.getElem?_set_ne hsame, hr, if_neg hsame, List.append_nil]

/-- **Commands are only added, and they are the ones accepted at the place.** -/
theorem getElem?_run {place : Nat} {r : Registry} (hr : shelf[place]? = some r)
    (ops : List Operation) :
    (shelf.run ops)[place]? =
      some { r with commands := r.commands ++ shelf.accepted place ops } := by
  induction ops generalizing shelf r with
  | nil => rw [accepted, List.append_nil]; exact hr
  | cons op ops ih =>
    have hlater := ih (getElem?_apply hr op)
    rw [List.append_assoc] at hlater
    exact hlater

theorem acceptedBy_of_frozen {place : Nat} {r : Registry} (hr : shelf[place]? = some r)
    (hfrozen : r.frozen = true) (op : Operation) : shelf.acceptedBy place op = [] := by
  rcases shelf.apply_cases op with ⟨-, hnone⟩ | ⟨i, r', -, -, hnone⟩ |
    ⟨i, r', c, hr', -, hopen, -, hone⟩
  · exact hnone place
  · exact hnone place
  · rw [hone, if_neg]
    rintro rfl
    obtain rfl : r' = r := Option.some.inj (hr'.symm.trans hr)
    cases hfrozen.symm.trans hopen

/-- **A frozen registry stays as it is.** -/
theorem getElem?_run_of_frozen {place : Nat} {r : Registry} (hr : shelf[place]? = some r)
    (hfrozen : r.frozen = true) (ops : List Operation) : (shelf.run ops)[place]? = some r := by
  induction ops generalizing shelf with
  | nil => exact hr
  | cons op ops ih =>
    have hnow := getElem?_apply hr op
    rw [acceptedBy_of_frozen hr hfrozen, List.append_nil] at hnow
    exact ih hnow

theorem distinct_apply (h : ∀ r ∈ shelf, r.Distinct) (op : Operation) :
    ∀ r ∈ shelf.apply op, r.Distinct := by
  rcases shelf.apply_cases op with ⟨happly, -⟩ | ⟨i, r, hr, happly, -⟩ |
    ⟨i, r, c, hr, hnew, -, happly, -⟩
  · rwa [happly]
  · rw [happly]
    intro r' hr'
    rcases List.mem_append.mp hr' with hold | hlast
    · exact h r' hold
    · rw [List.mem_singleton.mp hlast]
      exact h r (List.mem_of_getElem? hr)
  · rw [happly]
    intro r' hr'
    rcases List.mem_or_eq_of_mem_set hr' with hold | rfl
    · exact h r' hold
    · exact (h r (List.mem_of_getElem? hr)).concat hnew

/-- **No operation brings a name onto a list twice.** -/
theorem distinct_run (h : ∀ r ∈ shelf, r.Distinct) (ops : List Operation) :
    ∀ r ∈ shelf.run ops, r.Distinct := by
  induction ops generalizing shelf with
  | nil => exact h
  | cons op ops ih => exact ih (distinct_apply h op)

end Shelf

/-- Commands with distinct names that are all new are all accepted. -/
theorem Registry.defineAll_eq {r : Registry} (hopen : r.frozen = false) {cs : List Command}
    (h : ((r.commands ++ cs).map (·.name)).Nodup) :
    r.defineAll cs = .ok { r with commands := r.commands ++ cs } := by
  induction cs generalizing r with
  | nil =>
    rw [List.append_nil]
    rfl
  | cons c cs ih =>
    have hnew : r.contains c.name = false := by
      rw [← Bool.not_eq_true, contains_iff]
      intro hmem
      rw [List.map_append, List.nodup_append] at h
      exact h.2.2 c.name hmem c.name (by simp) rfl
    have hdefine : r.define c = .ok { r with commands := r.commands ++ [c] } := by
      rw [define, hnew, hopen]
      rfl
    have hlater := ih (r := { r with commands := r.commands ++ [c] }) hopen (by simpa using h)
    rw [defineAll, List.foldlM_cons, hdefine]
    rw [List.append_assoc] at hlater
    exact hlater

/--
**What registries know.**  Started from commands with distinct names, and after any number of
definitions and freezes, every registry gives answers that fit together.  The first one lists
the commands it was started with and then those accepted since, in order.  A refused
definition changes nothing, at whatever place.  And what is frozen answers every question, for
all time, as the registry it was made of did at that moment.
-/
theorem Shelf.registries_consistent {cs : List Command} (hcs : (cs.map (·.name)).Nodup) :
    Registry.defineAll {} cs = .ok { commands := cs } ∧
    ∀ (shelf : Shelf) (ops : List Operation), shelf = Shelf.run [{ commands := cs }] ops →
      (∀ r ∈ shelf, r.Consistent) ∧
      shelf[0]? =
        some { commands := cs ++ Shelf.accepted [{ commands := cs }] 0 ops } ∧
      (∀ i r c refusal, shelf[i]? = some r → r.define c = .error refusal →
        shelf.apply (.define i c) = shelf) ∧
      ∀ i r, shelf[i]? = some r → ∀ later,
        ∃ copy, (shelf.run (.freeze i :: later))[shelf.length]? = some copy ∧
          copy.frozen = true ∧ ∀ q, copy.reply q = r.reply q := by
  have hstart : ([{ commands := cs }] : Shelf)[0]? = some { commands := cs } := rfl
  refine ⟨Registry.defineAll_eq rfl (by simpa using hcs), ?_⟩
  rintro shelf ops rfl
  refine ⟨fun r hr => ?_, getElem?_run hstart ops, fun i r c refusal => apply_of_refused,
    fun i r hr later => ?_⟩
  · refine (distinct_run (fun r hr => ?_) ops r hr).consistent
    rwa [List.mem_singleton.mp hr]
  · have hlast : ((Shelf.run [{ commands := cs }] ops).apply (.freeze i))[
        (Shelf.run [{ commands := cs }] ops).length]? = some r.freeze := by
      rw [apply_freeze hr]
      exact List.getElem?_concat_length
    exact ⟨r.freeze, getElem?_run_of_frozen hlast rfl later, rfl, r.reply_freeze⟩

/--
One command more is defined and the registry is frozen.  A comment marker defined later is known
to the first registry and not to the frozen one, which refuses it.
-/
theorem Shelf.registries_consistent_speech :
    (Builtin.speech.map (·.name)).Nodup ∧
    ∃ first copy,
      Shelf.run [{ commands := Builtin.speech }] [.define 0 (Builtin.logging "shout" .output false),
        .freeze 0, .define 0 (Builtin.marker "#"), .define 1 (Builtin.marker "#")] =
          [first, copy] ∧
      first.Consistent ∧ copy.Consistent ∧
      first.commands.map (·.name) = ["print", "warn", "error", "stop", "set", "shout", "#"] ∧
      first.commentMarkers = ["#"] ∧ copy.commentMarkers = [] ∧
      ∀ q, copy.reply q = Registry.reply
        { commands := Builtin.speech ++ [Builtin.logging "shout" .output false] } q := by
  have hcs : (Builtin.speech.map (·.name)).Nodup := by decide
  obtain ⟨-, hops⟩ := Shelf.registries_consistent hcs
  obtain ⟨-, -, -, hfreeze⟩ := hops _ [.define 0 (Builtin.logging "shout" .output false)] rfl
  obtain ⟨copy, hcopy, -, hreply⟩ := hfreeze 0 _ rfl
    [.define 0 (Builtin.marker "#"), .define 1 (Builtin.marker "#")]
  obtain rfl := Option.some.inj hcopy
  obtain ⟨hall, -⟩ := hops
    [{ commands := Builtin.speech ++ [Builtin.logging "shout" .output false, Builtin.marker "#"] },
      Registry.freeze { commands := Builtin.speech ++ [Builtin.logging "shout" .output false] }]
    [.define 0 (Builtin.logging "shout" .output false), .freeze 0,
      .define 0 (Builtin.marker "#"), .define 1 (Builtin.marker "#")] rfl
  exact ⟨hcs, _, _, rfl, hall _ (by simp), hall _ (by simp), by decide, by decide, by decide,
    hreply⟩

end Eel
