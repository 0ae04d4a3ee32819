/-
A source of chance.

Every draw has an address, and a source is any assignment of draws to addresses.  A
computation that runs several others hands each of them its own branch of the source,
and a line hands the next one another branch.  So what one of them draws says nothing
about what another one draws: whatever the two draw, there is a source for it.
-/
import Eel.Number.Bits

namespace Eel

/-- How many draws there are, all of them equally likely: two to the power of 53. -/
abbrev Chance.range : Nat := 9007199254740992

/-- A source of chance: what is drawn at each address. -/
structure Chance where
  draws : List Nat → Fin Chance.range

namespace Chance

/-- The source that always draws the same. -/
def constant (draw : Fin range) : Chance := ⟨fun _ => draw⟩

/-- The branch of a source at which all addresses start with `step`. -/
def branch (c : Chance) (step : Nat) : Chance := ⟨fun address => c.draws (step :: address)⟩

/-- The source for the `k`-th part of a computation. -/
def child (c : Chance) (k : Nat) : Chance := c.branch (k + 1)

/-- The source for what comes after a computation. -/
def next (c : Chance) : Chance := c.branch 0

/-- What is drawn first. -/
def draw (c : Chance) : Fin range := c.draws []

/-- A number at least zero and below one, from a grid with a point for each draw. -/
def unit (c : Chance) : Float :=
  Number.ofPlace false
    (Number.nearest (c.draw.val * (2 * Number.unitsPerOne)) range)

/-- One of the alternatives. -/
def pick (c : Chance) (first : String) (others : List String) : String :=
  (first :: others).getD (c.draw.val % (others.length + 1)) first

end Chance

end Eel
