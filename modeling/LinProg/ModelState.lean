import LinProg.Comparison
import LinProg.DoubleGrid
import LinProg.Scaling
import LinProg.Status

/-!
# The state of a buffered model

What an in-process engine knows of a model: its columns with objective, bounds and types, its
rows, the settings, and the outcome of the last solve. A change that does not fit the model is
refused, which leaves no state behind: vectors need one entry for each column, rows a known
comparison code, and single columns are numbered from one.

A binary column is an integer column between zero and one: marking it sets both flags and both
bounds, and a column that loses the integer flag loses the binary one.
-/

namespace LinProg

structure Row where
  coefficients : List Float
  comparison : Comparison
  rhs : Float

/-- What a backend reports of a run. -/
structure Outcome where
  status : Int
  objective : Float
  values : List Float
  count : Nat
  iterations : Nat
deriving Inhabited

def Outcome.withoutSolution (status : Int) (columns : Nat) : Outcome where
  status
  objective := Double.zero
  values := List.replicate columns Double.zero
  count := 0
  iterations := 0

/-- The bounds and flags of one column; a column outside the model has neither. -/
structure ColumnView where
  lower : Option Float
  upper : Option Float
  integer : Bool
  binary : Bool

structure ModelState where
  columns : Nat
  objective : List Float
  maximize : Bool
  rows : List Row
  lower : List Float
  upper : List Float
  integer : List Bool
  binary : List Bool
  scaling : Scaling
  verbosity : Int
  timeout : UInt64
  outcome : Option Outcome

namespace ModelState

/-- Geometric scaling with equilibration, on integers too. -/
def defaultScaling : Scaling := ⟨196⟩

def defaultVerbosity : Int := 1

/-- A fresh model: nothing to optimize, every column continuous and not negative. -/
def new (columns : Nat) : ModelState where
  columns
  objective := List.replicate columns Double.zero
  maximize := false
  rows := []
  lower := List.replicate columns Double.zero
  upper := List.replicate columns Double.posInf
  integer := List.replicate columns false
  binary := List.replicate columns false
  scaling := defaultScaling
  verbosity := defaultVerbosity
  timeout := 0
  outcome := none

/-- The position of a column that is in the model. -/
def index? (s : ModelState) (column : Nat) : Option Nat :=
  if 1 ≤ column ∧ column ≤ s.columns then some (column - 1) else none

def setObjective (s : ModelState) (coefficients : List Float) : Option ModelState :=
  if coefficients.length = s.columns then some { s with objective := coefficients } else none

def addRow (s : ModelState) (coefficients : List Float) (code : Int) (rhs : Float) :
    Option ModelState :=
  if coefficients.length = s.columns then
    (Comparison.ofCode? code).map fun comparison =>
      { s with rows := s.rows ++ [⟨coefficients, comparison, rhs⟩] }
  else none

def setLowerBounds (s : ModelState) (bounds : List Float) : Option ModelState :=
  if bounds.length = s.columns then some { s with lower := bounds } else none

def setUpperBounds (s : ModelState) (bounds : List Float) : Option ModelState :=
  if bounds.length = s.columns then some { s with upper := bounds } else none

def setLowerBound (s : ModelState) (column : Nat) (value : Float) : Option ModelState :=
  (s.index? column).map fun i => { s with lower := s.lower.set i value }

def setUpperBound (s : ModelState) (column : Nat) (value : Float) : Option ModelState :=
  (s.index? column).map fun i => { s with upper := s.upper.set i value }

def setInteger (s : ModelState) (column : Nat) (flag : Bool) : Option ModelState :=
  (s.index? column).map fun i =>
    { s with
      integer := s.integer.set i flag
      binary := if flag then s.binary else s.binary.set i false }

def setBinary (s : ModelState) (column : Nat) (flag : Bool) : Option ModelState :=
  (s.index? column).map fun i =>
    { s with
      binary := s.binary.set i flag
      integer := s.integer.set i flag
      lower := if flag then s.lower.set i Double.zero else s.lower
      upper := if flag then s.upper.set i (Double.signedOne false) else s.upper }

def lowerBound? (s : ModelState) : Nat → Option Float
  | 0 => none
  | i + 1 => s.lower[i]?

def upperBound? (s : ModelState) : Nat → Option Float
  | 0 => none
  | i + 1 => s.upper[i]?

def isInteger (s : ModelState) : Nat → Bool
  | 0 => false
  | i + 1 => s.integer.getD i false

def isBinary (s : ModelState) : Nat → Bool
  | 0 => false
  | i + 1 => s.binary.getD i false

def column (s : ModelState) (c : Nat) : ColumnView :=
  ⟨s.lowerBound? c, s.upperBound? c, s.isInteger c, s.isBinary c⟩

def status (s : ModelState) : Int := (s.outcome.map Outcome.status).getD notSolved

/-- The objective value of an assignment, added up from the left; an empty sum is minus zero. -/
def evaluate (s : ModelState) (values : List Float) : Float :=
  (List.zipWith (· * ·) s.objective values).foldl (· + ·) Double.negZero

theorem index?_eq_some_iff {s : ModelState} {column i : Nat} :
    s.index? column = some i ↔ column = i + 1 ∧ i < s.columns := by
  unfold index?
  split <;> simp <;> omega

theorem index?_eq_none_iff {s : ModelState} {column : Nat} :
    s.index? column = none ↔ column = 0 ∨ s.columns < column := by
  unfold index?
  split <;> simp <;> omega

end ModelState

end LinProg
