import LinProg.DoubleGrid

/-!
# Limits

A limit is a rational number or one of the two infinities: what a double stands for as a bound or
as the right-hand side of a row, unless it is no number at all.
-/

namespace LinProg

inductive Limit where
  | negInf
  | finite (r : Rat)
  | posInf
deriving Repr, DecidableEq

namespace Limit

def ofFloat? (x : Float) : Option Limit :=
  match Double.toRat? x with
  | some r => some (.finite r)
  | none =>
    if Double.magnitude x = Double.infinite then
      some (if Double.isNegative x then .negInf else .posInf)
    else none

/-- The limit lies below a number, or at it. -/
def AtMost : Limit → Rat → Prop
  | .negInf, _ => True
  | .finite q, r => q ≤ r
  | .posInf, _ => False

/-- The limit lies above a number, or at it. -/
def AtLeast : Limit → Rat → Prop
  | .negInf, _ => False
  | .finite q, r => r ≤ q
  | .posInf, _ => True

def toRat? : Limit → Option Rat
  | .finite r => some r
  | _ => none

/-- The order of the limits. -/
def lt : Limit → Limit → Bool
  | .negInf, b => b != .negInf
  | .finite p, .finite q => p < q
  | .finite _, b => b == .posInf
  | .posInf, _ => false

end Limit

end LinProg
