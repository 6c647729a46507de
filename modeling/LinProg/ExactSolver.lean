import LinProg.BufferedEngine
import LinProg.IntegerSearch
import LinProg.LinearProgram
import LinProg.ShortestDecimal

/-!
# The built-in solver

A numeric solver answers a linear program with a value for each variable, or says why there is
none; `Backend.ofSolver` makes a backend of any such solver. The built-in one takes every number for
the shortest decimal that stands for it, computes exactly and rounds at the end, so that three times
`0.1` does not exceed `0.3`.

The bounds of a column that must be whole are rounded inwards and have to be 32-bit integers, of
which the outermost stand for a bound that is missing; the first such column with a bound out of
range, or with no number between its bounds, settles the answer. Elsewhere a bound or right-hand
side that is no number is one that nothing obeys.
-/

namespace LinProg

inductive SolverAnswer where
  | values (value : Nat → Float)
  | infeasible
  | unbounded
  | failed

namespace SolverAnswer

def status : SolverAnswer → Status
  | .values _ => .optimal
  | .infeasible => .infeasible
  | .unbounded => .unbounded
  | .failed => .numFailure

/-- The outcome to report for a model. -/
def outcome (a : SolverAnswer) (s : ModelState) : Outcome :=
  match a with
  | .values value =>
    let values := (List.range s.columns).map value
    ⟨Status.optimal.code, s.evaluate values, values, 1, 0⟩
  | _ => .withoutSolution a.status.code s.columns

end SolverAnswer

def Backend.ofSolver (name : String) (solver : LinearProgram → SolverAnswer) : Backend where
  name
  solve s := (solver (.ofModel s)).outcome s

namespace ExactSolver

open LinearProgram

/-- Why a program is settled before it is solved. -/
inductive Verdict where
  | infeasible
  | failed

def Verdict.answer : Verdict → SolverAnswer
  | .infeasible => .infeasible
  | .failed => .failed

/-- The shortest decimal of a finite number. -/
def decimal (x : Float) : Rat :=
  let size := (Decimal.shortest .toEven (Double.magnitude x)).toRat
  if Double.isNegative x then -size else size

def limit? (x : Float) : Option Limit :=
  (Limit.ofFloat? x).map fun
    | .finite _ => .finite (decimal x)
    | infinite => infinite

/-- The smallest and the greatest integer bound. -/
def leastInteger : Int := -2 ^ 31

def greatestInteger : Int := 2 ^ 31 - 1

def inRange (n : Int) : Except Verdict Int :=
  if leastInteger ≤ n ∧ n ≤ greatestInteger then .ok n else .error .failed

def wholeLower (x : Float) : Except Verdict Int :=
  match limit? x with
  | some .negInf => .ok leastInteger
  | some (.finite r) => inRange r.ceil
  | _ => .error .failed

def wholeUpper (x : Float) : Except Verdict Int :=
  match limit? x with
  | some .posInf => .ok greatestInteger
  | some (.finite r) => inRange r.floor
  | _ => .error .failed

def wholeBounds (c : Column) : Except Verdict Bounds := do
  let lower ← wholeLower c.lower
  let upper ← wholeUpper c.upper
  if upper < lower then .error .infeasible else .ok ⟨some (lower : Rat), some (upper : Rat)⟩

def realBounds (c : Column) : Except Verdict Bounds :=
  match limit? c.lower, limit? c.upper with
  | some l, some u =>
    if u.lt l || l == .posInf || u == .negInf then .error .infeasible
    else .ok ⟨l.toRat?, u.toRat?⟩
  | _, _ => .error .infeasible

/-- The box of all columns; those that must be whole are looked at first. -/
def box (columns : List Column) : Except Verdict (List Bounds) := do
  let _ ← (columns.filter (·.integer)).mapM wholeBounds
  columns.mapM fun c => if c.integer then wholeBounds c else realBounds c

/-- The coefficients of `n` variables in a sum of terms. -/
def coefficients (n : Nat) (ts : List Term) : Except Verdict (List Rat) := do
  let parts ← ts.mapM fun t =>
    if Double.isFinite t.coefficient then .ok (t.index, decimal t.coefficient)
    else .error .failed
  return Relaxation.dense n parts

/-- A row as an inequality, unless its right-hand side is infinite and it always holds. -/
def inequality? (n : Nat) (row : LinearProgram.Row) : Except Verdict (Option Inequality) := do
  let cs ← coefficients n row.terms
  match limit? row.rhs, row.comparison with
  | some (.finite r), comparison => .ok (some ⟨cs, comparison, r⟩)
  | some .posInf, .lessOrEqual => .ok none
  | some .negInf, .greaterOrEqual => .ok none
  | _, _ => .error .infeasible

def relaxation (p : LinearProgram) : Except Verdict Relaxation := do
  let n := p.columns.length
  let objective ← coefficients n p.objective
  let rows ← p.rows.mapM (inequality? n)
  let costs := if p.maximize then objective.map (- ·) else objective
  return ⟨costs, rows.filterMap id⟩

def run (p : LinearProgram) : Except Verdict Optimum := do
  let bounds ← box p.columns
  let r ← relaxation p
  return IntegerSearch.minimize r (p.columns.map Column.integer) bounds

def solve (p : LinearProgram) : SolverAnswer :=
  match run p with
  | .error v => v.answer
  | .ok (.found x) => .values fun i => Double.ofRat (x.getD i 0)
  | .ok .infeasible => .infeasible
  | .ok .unbounded => .unbounded
  | .ok .exhausted => .failed

end ExactSolver

def Backend.exact : Backend := .ofSolver "microlp" ExactSolver.solve

end LinProg
