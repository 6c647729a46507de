import LinProg.Constraint
import LinProg.Designation
import LinProg.SolveError

/-!
# Problems

A problem states an objective, constraints, bounds and the types of its variables. The objective
has one coefficient for each variable; bounds may be left out, which leaves them to the engine.

`Problem.defect?` is the first part whose length does not fit: the constraints in order, then
lower and upper bounds, which are empty or complete, then the designations, which may be short but
not long.
-/

namespace LinProg

structure Problem where
  objective : List Float := []
  constraints : List Constraint := []
  lower : List Float := []
  upper : List Float := []
  integer : Designation := default
  binary : Designation := default
deriving Inhabited

namespace Problem

def columns (p : Problem) : Nat := p.objective.length

def rows (p : Problem) : Nat := p.constraints.length

def isMixedInteger (p : Problem) : Bool := !p.integer.isEmpty || !p.binary.isEmpty

/-- The parts of a problem that have a length. -/
inductive Part where
  | constraint (index : Nat)
  | lower
  | upper
  | integer
  | binary
deriving Repr, DecidableEq

def Part.name : Part → String
  | .constraint index => s!"constraint {index} coefficients"
  | .lower => "lower bounds"
  | .upper => "upper bounds"
  | .integer => "integer variables"
  | .binary => "binary variables"

/-- A part with its length, which does not fit the number of variables. -/
structure Defect where
  part : Part
  expected : Nat
  actual : Nat
deriving Repr, DecidableEq

def Defect.error (d : Defect) : SolveError :=
  .dimensionMismatch d.part.name d.expected d.actual

def constraintDefect? (n : Nat) (c : Constraint × Nat) : Option Defect :=
  if c.1.coefficients.length = n then none
  else some ⟨.constraint c.2, n, c.1.coefficients.length⟩

def boundsDefect? (n : Nat) (part : Part) (bounds : List Float) : Option Defect :=
  if bounds.isEmpty || bounds.length == n then none else some ⟨part, n, bounds.length⟩

def designationDefect? (n : Nat) (part : Part) (d : Designation) : Option Defect :=
  match d.length? with
  | some k => if k ≤ n then none else some ⟨part, n, k⟩
  | none => none

def defect? (p : Problem) : Option Defect :=
  let n := p.columns
  (p.constraints.zipIdx.findSome? (constraintDefect? n)).or <|
    (boundsDefect? n .lower p.lower).or <|
    (boundsDefect? n .upper p.upper).or <|
    (designationDefect? n .integer p.integer).or <|
    designationDefect? n .binary p.binary

end Problem

end LinProg
