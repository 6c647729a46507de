import LinProg.Comparison

/-!
# Simplex tableaus

A tableau is a system of equations over variables that are not negative, each equation solved for
one basic variable, with the costs of the others. `optimize` pivots until no cost is negative; it
takes the first column of negative cost, and of the tightest rows the one with the first basic
variable, which never returns to a basis. `minimize` begins with the slack variables as far as they
are not negative, and first pivots an artificial variable out of every other row.

All numbers are rational and exact. The number of pivots is bounded by the number of bases.
-/

namespace LinProg

structure TableauRow where
  basic : Nat
  coefficients : List Rat
  rhs : Rat
deriving Inhabited

structure Tableau where
  rows : List TableauRow
  costs : List Rat

/-- A sum of coefficients times variables compared with a number. -/
structure Inequality where
  coefficients : List Rat
  comparison : Comparison
  rhs : Rat

inductive Optimum where
  | found (values : List Rat)
  | infeasible
  | unbounded
  | exhausted

namespace TableauRow

def coefficient (row : TableauRow) (j : Nat) : Rat := row.coefficients.getD j 0

def divide (row : TableauRow) (a : Rat) : TableauRow :=
  { row with coefficients := row.coefficients.map (· / a), rhs := row.rhs / a }

def subtract (row : TableauRow) (a : Rat) (other : TableauRow) : TableauRow :=
  { row with
    coefficients := List.zipWith (fun x y => x - a * y) row.coefficients other.coefficients
    rhs := row.rhs - a * other.rhs }

end TableauRow

namespace Tableau

/-- Solves row `i` for variable `j` and eliminates it from all else. -/
def pivot (t : Tableau) (i j : Nat) : Tableau :=
  match t.rows[i]? with
  | none => t
  | some row =>
    let solved := { row.divide (row.coefficient j) with basic := j }
    { rows := t.rows.mapIdx fun k other =>
        if k = i then solved else other.subtract (other.coefficient j) solved
      costs := List.zipWith (fun c y => c - t.costs.getD j 0 * y) t.costs solved.coefficients }

/-- The rows that limit the growth of variable `j`: the limit, the basic variable, the row. -/
def limits (t : Tableau) (j : Nat) : List (Rat × Nat × Nat) :=
  t.rows.zipIdx.filterMap fun r =>
    let a := r.1.coefficient j
    if 0 < a then some (r.1.rhs / a, r.1.basic, r.2) else none

def tighter (a b : Rat × Nat × Nat) : Bool := a.1 < b.1 || (a.1 == b.1 && a.2.1 < b.2.1)

/-- The row to solve for variable `j`. -/
def leaving? (t : Tableau) (j : Nat) : Option Nat :=
  match t.limits j with
  | [] => none
  | l :: ls => some (ls.foldl (fun a b => if tighter b a then b else a) l).2.2

/-- The optimal tableau, or `none` where the costs have no bound. -/
def optimize : Nat → Tableau → Except Optimum Tableau
  | 0, _ => .error .exhausted
  | fuel + 1, t =>
    match t.costs.findIdx? (· < 0) with
    | none => .ok t
    | some j =>
      match t.leaving? j with
      | none => .error .unbounded
      | some i => optimize fuel (t.pivot i j)

/-- The values of the first `n` variables. -/
def values (t : Tableau) (n : Nat) : List Rat :=
  (List.range n).map fun j => ((t.rows.find? fun r => r.basic == j).map TableauRow.rhs).getD 0

/-- The costs of the variables once the basic ones are eliminated. -/
def reducedCosts (costs : List Rat) (rows : List TableauRow) : List Rat :=
  rows.foldl (fun c r => List.zipWith (fun x y => x - costs.getD r.basic 0 * y) c r.coefficients)
    costs

/-- Solves every row whose basic variable is not among the first `n` for one that is, or drops it
where there is none. -/
def expel (n : Nat) : Nat → Tableau → Tableau
  | 0, t => t
  | fuel + 1, t =>
    match t.rows.findIdx? fun r => n ≤ r.basic with
    | none => t
    | some i =>
      match ((t.rows.getD i default).coefficients.take n).findIdx? (· != 0) with
      | some j => expel n fuel (t.pivot i j)
      | none => expel n fuel { t with rows := t.rows.eraseIdx i }

end Tableau

namespace Inequality

/-- The coefficient of the slack variable that makes an equation of the inequality. -/
def slack (q : Inequality) : Rat :=
  match q.comparison with
  | .lessOrEqual => 1
  | .equal => 0
  | .greaterOrEqual => -1

def indicator (n k : Nat) (a : Rat) : List Rat :=
  (List.range n).map fun i => if i = k then a else 0

/-- The sign to multiply a row by, so that its right-hand side is not negative. -/
def side (q : Inequality) : Rat :=
  if q.rhs < 0 ∨ (q.rhs = 0 ∧ q.comparison = .greaterOrEqual) then -1 else 1

/-- Row `k` of `m` as an equation with a slack variable, which is basic if it can be, or else an
artificial one. -/
def equation (n m k : Nat) (q : Inequality) : TableauRow :=
  let slackIsBasic := q.side * q.slack == 1
  let coefficients := q.coefficients ++ indicator m k q.slack
  { basic := if slackIsBasic then n + k else n + m + k
    coefficients := coefficients.map (q.side * ·) ++ indicator m k (if slackIsBasic then 0 else 1)
    rhs := q.side * q.rhs }

end Inequality

/-- The least value of the costs over all assignments that are not negative and obey the rows. -/
def Tableau.minimize (costs : List Rat) (rows : List Inequality) : Optimum :=
  let n := costs.length
  let m := rows.length
  let equations := rows.mapIdx fun k q => q.equation n m k
  let artificial := List.replicate (n + m) 0 ++ List.replicate m 1
  let bound := 2 ^ (n + 2 * m)
  match optimize bound ⟨equations, reducedCosts artificial equations⟩ with
  | .error _ => .exhausted
  | .ok t =>
    if t.rows.any fun r => n + m ≤ r.basic && r.rhs != 0 then .infeasible
    else
      let t := expel (n + m) m t
      let rows := t.rows.map fun r => { r with coefficients := r.coefficients.take (n + m) }
      let costs := costs ++ List.replicate m 0
      match optimize bound ⟨rows, reducedCosts costs rows⟩ with
      | .error e => e
      | .ok t => .found (t.values n)

end LinProg
