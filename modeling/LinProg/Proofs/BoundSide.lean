import LinProg.EngineCall
import LinProg.ModelEdit

/-!
# The two sides of bounds

Columns are bounded from below and from above, and the calls and the changes of the two sides differ
only in the list of bounds that they write. Here the side is an argument of each of them.
-/

namespace LinProg

/-- The two sides on which a column is bounded. -/
inductive BoundSide where
  | lower
  | upper
deriving Repr, DecidableEq

namespace BoundSide

def bounds : BoundSide → ModelState → List Float
  | .lower, s => s.lower
  | .upper, s => s.upper

def withBounds : BoundSide → ModelState → List Float → ModelState
  | .lower, s, bounds => { s with lower := bounds }
  | .upper, s, bounds => { s with upper := bounds }

/-- The call that sets all bounds. -/
def call : BoundSide → List Float → Call
  | .lower => .setLowerBounds
  | .upper => .setUpperBounds

/-- The change of all bounds. -/
def bulk : BoundSide → List Float → ModelEdit
  | .lower => .setLowerBounds
  | .upper => .setUpperBounds

/-- The change of the bound of one column. -/
def single : BoundSide → Nat → Float → ModelEdit
  | .lower => .setLowerBound
  | .upper => .setUpperBound

variable {side : BoundSide} {s : ModelState} {bounds bounds' : List Float}

@[simp] theorem bounds_withBounds : side.bounds (side.withBounds s bounds) = bounds := by
  cases side <;> rfl

@[simp] theorem withBounds_withBounds :
    side.withBounds (side.withBounds s bounds) bounds' = side.withBounds s bounds' := by
  cases side <;> rfl

@[simp] theorem withBounds_bounds : side.withBounds s (side.bounds s) = s := by
  cases side <;> rfl

theorem edit?_bulk (s : ModelState) :
    s.edit? (side.bulk bounds) =
      if bounds.length = s.columns then some (side.withBounds s bounds) else none := by
  cases side <;> rfl

theorem edit?_single (s : ModelState) (c : Nat) (x : Float) :
    s.edit? (side.single c x) =
      (s.index? c).map fun i => side.withBounds s ((side.bounds s).set i x) := by
  cases side <;> rfl

end BoundSide

end LinProg
