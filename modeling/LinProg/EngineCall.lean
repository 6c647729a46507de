import LinProg.Direction
import LinProg.Scaling

/-!
# Calls on an engine model

Everything that can be asked of one model of an engine, with the type of each reply. Vectors have
one entry for each column; single columns are numbered from one. A reply of type `Bool` to a
change tells whether the model accepted it.

`Call.name` is the engine's own word for a call. A hook may change single columns and settings and
may ask about them and about the status (`Call.OpenToHooks`), but it may not touch the rows, solve
the model or release it.
-/

namespace LinProg

inductive Call where
  | setScaling (scaling : Scaling)
  | setVerbosity (level : Int)
  | setTimeout (seconds : UInt64)
  | setObjective (coefficients : List Float)
  | setDirection (direction : Direction)
  | addRow (coefficients : List Float) (code : Int) (rhs : Float)
  | setLowerBounds (bounds : List Float)
  | setUpperBounds (bounds : List Float)
  | setLowerBound (column : Nat) (value : Float)
  | setUpperBound (column : Nat) (value : Float)
  | setInteger (column : Nat) (flag : Bool)
  | setBinary (column : Nat) (flag : Bool)
  | solve
  | objective
  | solutionCount
  | values
  | status
  | statusText (code : Int)
  | iterations
  | columns
  | rows
  | lowerBound (column : Nat)
  | upperBound (column : Nat)
  | isInteger (column : Nat)
  | isBinary (column : Nat)
  | isMaximize
  | scaling
  | verbosity
  | timeout
  | release

namespace Call

@[reducible] def Reply : Call → Type
  | .setScaling _ | .setVerbosity _ | .setTimeout _ | .setDirection _ | .release => Unit
  | .setObjective _ | .addRow _ _ _ | .setLowerBounds _ | .setUpperBounds _ => Bool
  | .setLowerBound _ _ | .setUpperBound _ _ | .setInteger _ _ | .setBinary _ _ => Bool
  | .solve | .status | .verbosity => Int
  | .objective => Float
  | .values => Option (List Float)
  | .statusText _ => String
  | .solutionCount | .iterations | .columns | .rows => Nat
  | .lowerBound _ | .upperBound _ => Option Float
  | .isInteger _ | .isBinary _ | .isMaximize => Bool
  | .scaling => Scaling
  | .timeout => UInt64

def name : Call → String
  | .setScaling _ => "set_scaling"
  | .setVerbosity _ => "set_verbose"
  | .setTimeout _ => "set_timeout"
  | .setObjective _ => "set_obj_fn"
  | .setDirection .minimize => "set_minim"
  | .setDirection .maximize => "set_maxim"
  | .addRow _ _ _ => "add_constraint"
  | .setLowerBounds _ => "set_lowbo"
  | .setUpperBounds _ => "set_upbo"
  | .setLowerBound _ _ => "set_lowbo_single"
  | .setUpperBound _ _ => "set_upbo_single"
  | .setInteger _ _ => "set_int"
  | .setBinary _ _ => "set_binary"
  | .solve => "solve"
  | .objective => "get_working_objective"
  | .solutionCount => "get_solutioncount"
  | .values => "get_variables"
  | .status => "get_status"
  | .statusText _ => "get_statustext"
  | .iterations => "get_total_iter"
  | .columns => "get_ncolumns"
  | .rows => "get_nrows"
  | .lowerBound _ => "get_lowbo"
  | .upperBound _ => "get_upbo"
  | .isInteger _ => "is_int"
  | .isBinary _ => "is_binary"
  | .isMaximize => "is_maxim"
  | .scaling => "get_scaling"
  | .verbosity => "get_verbose"
  | .timeout => "get_timeout"
  | .release => "delete_lp"

/-- Whether a reply lets the building of a model go on: it is no refusal. -/
def accepted : (c : Call) → c.Reply → Bool
  | .setObjective _, reply | .addRow _ _ _, reply => reply
  | .setLowerBounds _, reply | .setUpperBounds _, reply => reply
  | .setInteger _ _, reply | .setBinary _ _, reply => reply
  | .setLowerBound _ _, reply | .setUpperBound _ _, reply => reply
  | _, _ => true

/-- Asks about columns, rows and settings only. -/
def isLookup : Call → Bool
  | .columns | .rows | .lowerBound _ | .upperBound _ | .isInteger _ | .isBinary _ => true
  | .isMaximize | .scaling | .verbosity | .timeout => true
  | _ => false

def isOpenToHooks : Call → Bool
  | .setScaling _ | .setVerbosity _ | .setTimeout _ => true
  | .setLowerBound _ _ | .setUpperBound _ _ | .setInteger _ _ | .setBinary _ _ => true
  | .status | .iterations => true
  | c => c.isLookup

def OpenToHooks (c : Call) : Prop := c.isOpenToHooks = true

end Call

/-- A call with the reply it got. -/
structure Exchange where
  call : Call
  reply : call.Reply

end LinProg
