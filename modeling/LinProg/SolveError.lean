/-!
# Errors of modelling and solving

Each error is a cause, and `message` its wording. Only `solveFailed` carries a status code.
-/

namespace LinProg

inductive SolveError where
  | invalidFormat (detail : String)
  | invalidDirection (text : String)
  | engineUnavailable (reason : String)
  | dimensionMismatch (what : String) (expected actual : Nat)
  | engineRejected (operation : String)
  | solveFailed (text : String) (code : Int)
  | hookFailed (stage : String) (source : String)
  | config (reason : String)
deriving Repr, DecidableEq

namespace SolveError

def message : SolveError → String
  | .invalidFormat detail => s!"Invalid constraint format: {detail}"
  | .invalidDirection text =>
    s!"Objective function must be minimized or maximized (got '{text}')"
  | .engineUnavailable reason => s!"Engine not available: {reason}"
  | .dimensionMismatch what expected actual =>
    s!"Dimension mismatch in {what}: expected {expected}, got {actual}"
  | .engineRejected operation => s!"Engine rejected {operation}: invalid vector"
  | .solveFailed text _ => text
  | .hookFailed stage source => s!"{stage} hook failed: {source}"
  | .config reason => s!"Invalid configuration: {reason}"

def code? : SolveError → Option Int
  | .solveFailed _ code => some code
  | _ => none

end SolveError

end LinProg
