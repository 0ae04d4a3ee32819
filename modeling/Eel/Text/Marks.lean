/-
Sets of code points, written down as the points where membership switches.

A property of characters is a sorted list of marks.  Below the first mark no code
point has the property; from the first mark up to the second every one has it;
from there to the third none has it, and so on.
-/
namespace Eel.Text

/-- Membership of `n` when it is `on` below the first mark and switches at each mark. -/
def switched (on : Bool) (n : Nat) : (marks : List Nat) → Bool
  | [] => on
  | m :: marks => if n < m then on else switched (!on) n marks

/-- Membership in the set whose members start and stop in turn at `marks`. -/
def switchedOn (marks : List Nat) (n : Nat) : Bool := switched false n marks

end Eel.Text
