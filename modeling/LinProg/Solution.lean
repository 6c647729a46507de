import LinProg.Status

/-!
# Solutions

What one solve reports: the objective value, how many solutions were found, the values of the
variables in objective order, and the engine's code and text for the outcome.
-/

namespace LinProg

structure Solution where
  objective : Float
  count : Nat
  values : List Float
  code : Int
  status : String
  iterations : Nat
deriving Inhabited

namespace Solution

def status? (s : Solution) : Option Status := Status.ofCode? s.code

def isOptimal (s : Solution) : Bool := s.status?.any Status.isOptimal

theorem isOptimal_iff (s : Solution) : s.isOptimal = true ↔ s.code = 0 := by
  unfold isOptimal status?
  constructor
  · cases hs : Status.ofCode? s.code with
    | none => simp
    | some t =>
      intro ht
      have : t = .optimal := by simpa [Status.isOptimal] using ht
      rw [← Status.code_eq_of_ofCode? hs, this]
      rfl
  · intro h
    rw [h]
    rfl

end Solution

end LinProg
