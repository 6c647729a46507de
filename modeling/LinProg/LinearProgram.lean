import LinProg.Limit
import LinProg.ModelState

/-!
# Linear programs

What is handed to a numeric solver: columns with bounds and a mark on those that must be whole, an
objective to minimize or maximize, and rows. Objective and rows are sums of terms, from which zero
coefficients are left out. `LinearProgram.ofModel` takes a program from the state of a model.

`Feasible` and `objectiveValue` say what a program means for an assignment of rational numbers.
-/

-- Sums end in the numeral zero, also where other libraries have a zero of their own.
attribute [local instance (high)] Zero.ofOfNat0

namespace LinProg

namespace LinearProgram

structure Column where
  lower : Float
  upper : Float
  integer : Bool

/-- A product of a coefficient and the variable at a position. -/
structure Term where
  index : Nat
  coefficient : Float

structure Row where
  terms : List Term
  comparison : Comparison
  rhs : Float

/-- The terms of a row of coefficients, without those that are zero. -/
def terms (coefficients : List Float) : List Term :=
  coefficients.zipIdx.filterMap fun c => if c.1 == Double.zero then none else some ⟨c.2, c.1⟩

/-- The value of a sum of terms with finite coefficients. -/
def value (ts : List Term) (x : Nat → Rat) : Rat :=
  (ts.map fun t => (Double.toRat? t.coefficient).getD 0 * x t.index).sum

def Column.Admits (c : Column) (r : Rat) : Prop :=
  (∃ l ∈ Limit.ofFloat? c.lower, l.AtMost r) ∧ (∃ u ∈ Limit.ofFloat? c.upper, u.AtLeast r) ∧
    (c.integer = true → r.den = 1)

def Row.Holds (row : Row) (x : Nat → Rat) : Prop :=
  ∃ b ∈ Double.toRat? row.rhs, row.comparison.Holds (value row.terms x) b

end LinearProgram

structure LinearProgram where
  columns : List LinearProgram.Column
  maximize : Bool
  objective : List LinearProgram.Term
  rows : List LinearProgram.Row

namespace LinearProgram

def Feasible (p : LinearProgram) (x : Nat → Rat) : Prop :=
  (∀ i (c : Column), p.columns[i]? = some c → c.Admits (x i)) ∧ ∀ row ∈ p.rows, row.Holds x

def objectiveValue (p : LinearProgram) (x : Nat → Rat) : Rat := value p.objective x

def columnsOf (lower upper : List Float) (integer : List Bool) : List Column :=
  (List.zip lower (List.zip upper integer)).map fun c => ⟨c.1, c.2.1, c.2.2⟩

def ofModel (s : ModelState) : LinearProgram where
  columns := columnsOf s.lower s.upper s.integer
  maximize := s.maximize
  objective := terms s.objective
  rows := s.rows.map fun row => ⟨terms row.coefficients, row.comparison, row.rhs⟩

end LinearProgram

end LinProg
