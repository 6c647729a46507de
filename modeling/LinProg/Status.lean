import LinProg.Enumeration

/-!
# Status codes

An engine reports the outcome of a solve by a code. Fourteen of the codes have a meaning known
here, of which only `optimal` counts as success. In-process engines share one table of texts,
`statusText`, which covers some codes besides these and has a text for all others.
-/

namespace LinProg

inductive Status where
  | noMemory
  | optimal
  | subOptimal
  | infeasible
  | unbounded
  | degenerate
  | numFailure
  | userAbort
  | timeout
  | presolved
  | procFail
  | procBreak
  | feasFound
  | noFeasFound
deriving Repr, DecidableEq

namespace Status

def all : List Status :=
  [.noMemory, .optimal, .subOptimal, .infeasible, .unbounded, .degenerate, .numFailure,
    .userAbort, .timeout, .presolved, .procFail, .procBreak, .feasFound, .noFeasFound]

def code : Status → Int
  | .noMemory => -2
  | .optimal => 0
  | .subOptimal => 1
  | .infeasible => 2
  | .unbounded => 3
  | .degenerate => 4
  | .numFailure => 5
  | .userAbort => 6
  | .timeout => 7
  | .presolved => 9
  | .procFail => 10
  | .procBreak => 11
  | .feasFound => 12
  | .noFeasFound => 13

def ofCode? (n : Int) : Option Status := all.find? fun s => s.code == n

def isOptimal (s : Status) : Bool := s == .optimal

def name : Status → String
  | .noMemory => "NoMemory"
  | .optimal => "Optimal"
  | .subOptimal => "SubOptimal"
  | .infeasible => "Infeasible"
  | .unbounded => "Unbounded"
  | .degenerate => "Degenerate"
  | .numFailure => "NumFailure"
  | .userAbort => "UserAbort"
  | .timeout => "Timeout"
  | .presolved => "Presolved"
  | .procFail => "ProcFail"
  | .procBreak => "ProcBreak"
  | .feasFound => "FeasFound"
  | .noFeasFound => "NoFeasFound"

instance : Enumeration Status where
  members := all
  dataName
    | .noMemory => "NO_MEMORY"
    | .optimal => "OPTIMAL"
    | .subOptimal => "SUB_OPTIMAL"
    | .infeasible => "INFEASIBLE"
    | .unbounded => "UNBOUNDED"
    | .degenerate => "DEGENERATE"
    | .numFailure => "NUM_FAILURE"
    | .userAbort => "USER_ABORT"
    | .timeout => "TIMEOUT"
    | .presolved => "PRESOLVED"
    | .procFail => "PROC_FAIL"
    | .procBreak => "PROC_BREAK"
    | .feasFound => "FEAS_FOUND"
    | .noFeasFound => "NO_FEAS_FOUND"
  find_dataName a := by cases a <;> rfl

theorem code_eq_of_ofCode? {n : Int} {s : Status} (h : ofCode? n = some s) : s.code = n := by
  simpa using List.find?_some h

end Status

/-- The code of a model that was not solved yet. -/
def notSolved : Int := -1

def statusText : Int → String
  | -5 => "Unknown error"
  | -4 => "Data ignored"
  | -3 => "No basis factorization package"
  | -2 => "Out of memory"
  | -1 => "Model has not been optimized"
  | 0 => "OPTIMAL solution"
  | 1 => "SUB-OPTIMAL solution"
  | 2 => "Model is primal INFEASIBLE"
  | 3 => "Model is primal UNBOUNDED"
  | 4 => "DEGENERATE situation"
  | 5 => "NUMERIC FAILURE encountered"
  | 6 => "User-requested termination"
  | 7 => "Termination due to timeout"
  | 8 => "lp_solve is currently running"
  | 9 => "Model was presolved"
  | 10 => "B&B routine failed"
  | 11 => "B&B routine terminated"
  | 12 => "Feasible B&B solution found"
  | 13 => "No feasible B&B solution found"
  | 14 => "Fathomed/pruned branch"
  | _ => "Undefined internal error"

end LinProg
