import LinProg.Relaxation

/-!
# Search for integer optima

Branch and bound. A candidate is a box with the best point in it, whole or not. The search takes a
candidate of least cost, of several the latest. If its point is whole where it must be, it is an
optimum, since no other box has a better one. Otherwise the box is split at a variable that has a
fraction, into the part below the fraction and the part above it. The search gives up when it has
split `budget` boxes.

Costs that have no bound over all points have none over the integer ones either, so then only the
existence of an integer point is left to decide.
-/

namespace LinProg.IntegerSearch

structure Candidate where
  box : List Bounds
  point : List Rat
  cost : Rat

/-- The first variable that must be whole and is not. -/
def fractional? (integer : List Bool) (x : List Rat) : Option (Nat × Rat) :=
  (List.zip x integer).zipIdx.findSome? fun v =>
    if v.1.2 && v.1.1.den != 1 then some (v.2, v.1.1) else none

def below (box : List Bounds) (j : Nat) (v : Rat) : List Bounds :=
  box.modify j fun b => { b with upper := some (v.floor : Rat) }

def above (box : List Bounds) (j : Nat) (v : Rat) : List Bounds :=
  box.modify j fun b => { b with lower := some (v.floor + 1 : Rat) }

/-- Puts a candidate before the first one that costs as much or more. -/
def insert (c : Candidate) : List Candidate → List Candidate
  | [] => [c]
  | d :: rest => if c.cost ≤ d.cost then c :: d :: rest else d :: insert c rest

/-- The candidate of a box that is not empty and over which the costs have a bound. -/
def candidate? (r : Relaxation) (box : List Bounds) : Option Candidate :=
  match r.minimize box with
  | .found x => some ⟨box, x, r.cost x⟩
  | _ => none

/-- Splits candidates, which come in the order of their costs, until the first one is whole. -/
def search (r : Relaxation) (integer : List Bool) : Nat → List Candidate → Optimum
  | _, [] => .infeasible
  | 0, _ :: _ => .exhausted
  | fuel + 1, c :: rest =>
    match fractional? integer c.point with
    | none => .found c.point
    | some (j, v) =>
      let parts := [below c.box j v, above c.box j v].filterMap (candidate? r)
      search r integer fuel (parts.foldr insert rest)

def budget : Nat := 20000

def minimize (r : Relaxation) (integer : List Bool) (box : List Bounds) : Optimum :=
  match r.minimize box with
  | .found x => search r integer budget [⟨box, x, r.cost x⟩]
  | .unbounded =>
    let free := { r with costs := r.costs.map fun _ => 0 }
    match search free integer budget (candidate? free box).toList with
    | .found _ => .unbounded
    | other => other
  | other => other

end LinProg.IntegerSearch
