import LinProg.Tableau

/-!
# Programs over boxes

A box limits each variable of a program from below, from above, on both sides or not at all. Every
variable is written as an offset plus or minus a variable that is not negative, or as the
difference of two where it has no bound, and each upper bound beside a lower one becomes a row.
`Relaxation.minimize` solves the program so obtained and gives the values of the variables in the
box.
-/

-- Sums end in the numeral zero, also where other libraries have a zero of their own.
attribute [local instance (high)] Zero.ofOfNat0

namespace LinProg

structure Bounds where
  lower : Option Rat
  upper : Option Rat
deriving Inhabited

/-- The costs to minimize and the rows to obey, by dense coefficients. -/
structure Relaxation where
  costs : List Rat
  rows : List Inequality

namespace Relaxation

/-- A variable as an offset and multiples of variables that are not negative. -/
structure Substitution where
  offset : Rat
  parts : List (Nat × Rat)

/-- The substitutions for a box, from the next free variable on. -/
def substitutions (next : Nat) : List Bounds → List Substitution
  | [] => []
  | ⟨some l, _⟩ :: box => ⟨l, [(next, 1)]⟩ :: substitutions (next + 1) box
  | ⟨none, some u⟩ :: box => ⟨u, [(next, -1)]⟩ :: substitutions (next + 1) box
  | ⟨none, none⟩ :: box => ⟨0, [(next, 1), (next + 1, -1)]⟩ :: substitutions (next + 2) box

def dense (n : Nat) (parts : List (Nat × Rat)) : List Rat :=
  (List.range n).map fun k => ((parts.filter fun p => p.1 == k).map Prod.snd).sum

/-- Coefficients of the variables in the box as coefficients of the others, and the constant. -/
def substitute (subs : List Substitution) (n : Nat) (coefficients : List Rat) : List Rat × Rat :=
  let used := List.zip coefficients subs
  (dense n (used.flatMap fun u => u.2.parts.map fun p => (p.1, u.1 * p.2)),
    (used.map fun u => u.1 * u.2.offset).sum)

/-- The rows that keep variables with two bounds below the upper one. -/
def ceilings (subs : List Substitution) (n : Nat) (box : List Bounds) : List Inequality :=
  (List.zip subs box).filterMap fun v =>
    match v.2 with
    | ⟨some l, some u⟩ => some ⟨dense n v.1.parts, .lessOrEqual, u - l⟩
    | _ => none

def minimize (r : Relaxation) (box : List Bounds) : Optimum :=
  let subs := substitutions 0 box
  let n := (subs.map fun s => s.parts.length).sum
  let rows := r.rows.map fun q =>
    let (coefficients, constant) := substitute subs n q.coefficients
    { q with coefficients, rhs := q.rhs - constant }
  match Tableau.minimize (substitute subs n r.costs).1 (rows ++ ceilings subs n box) with
  | .found values =>
    .found (subs.map fun s => s.offset + (s.parts.map fun p => p.2 * values.getD p.1 0).sum)
  | other => other

def cost (r : Relaxation) (x : List Rat) : Rat := (List.zipWith (· * ·) r.costs x).sum

end Relaxation

end LinProg
