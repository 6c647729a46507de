/-!
# Rounding

A quotient of natural numbers is rounded to the nearer of the two whole numbers around it; `Tie`
says where a half goes.
-/

namespace LinProg

inductive Tie where
  | up
  | toEven
deriving Repr, DecidableEq

namespace Tie

/-- Whether `num / den` goes to the whole number above it. -/
def roundsUp (tie : Tie) (num den : Nat) : Bool :=
  let rest := 2 * (num % den)
  den < rest || (den == rest && (tie == .up || num / den % 2 == 1))

def round (tie : Tie) (num den : Nat) : Nat :=
  if tie.roundsUp num den then num / den + 1 else num / den

end Tie

end LinProg
