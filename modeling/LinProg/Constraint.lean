import LinProg.Comparison
import LinProg.NumberText

/-!
# Constraints

A constraint is one row of a problem: the sum of coefficients times variables compares with a
value. `Constraint.render` writes it with the variable names `x1`, `x2` and so on; from the second
term on, the sign of a coefficient stands between the terms.
-/

namespace LinProg

structure Constraint where
  coefficients : List Float := []
  comparison : Comparison := .lessOrEqual
  value : Float := Double.zero
deriving Inhabited

namespace Constraint

/-- Equality of the numbers: the two zeros agree, and what is no number agrees with nothing. -/
def agrees (a b : Constraint) : Bool :=
  a.coefficients == b.coefficients && a.comparison == b.comparison && a.value == b.value

def columnName (column : Nat) : List Char := 'x' :: Nat.toDigits 10 column

/-- The terms for the columns from `column` on, each behind a sign. -/
def renderRest (column : Nat) : List Float → List Char
  | [] => []
  | c :: cs =>
    let sign := if Double.isNegative c then '-' else '+'
    ' ' :: sign :: ' ' :: Double.text (Double.abs c) ++ columnName column ++
      renderRest (column + 1) cs

/-- The left-hand side; without coefficients it is a zero. -/
def renderTerms : List Float → List Char
  | [] => ['0']
  | c :: cs => Double.text c ++ columnName 1 ++ renderRest 2 cs

def render (c : Constraint) : List Char :=
  renderTerms c.coefficients ++ ' ' :: c.comparison.symbol.toList ++ ' ' :: Double.text c.value

instance : ToString Constraint := ⟨fun c => String.ofList c.render⟩

end Constraint

end LinProg
