import LinProg.Duration
import LinProg.EngineCatalog
import LinProg.Hook

/-!
# Solvers

A solver holds how problems are to be solved: the direction, the settings to pass to the engine,
the hooks, and the engine itself, either given or chosen by name. It keeps nothing of the problems
it has solved.
-/

namespace LinProg

structure Solver where
  direction : Direction := .minimize
  scaling : Scaling := default
  verbosity : Verbosity := .important
  timeout : Option Duration := none
  /-- Report every status but an optimal one as an error. -/
  throwOnFailure : Bool := false
  choice : EngineChoice := .auto
  /-- An engine to use whatever the choice. -/
  custom : Option Engine := none
  beforeSolve : Option BeforeHook := none
  afterSolve : Option AfterHook := none

namespace Solver

instance : Inhabited Solver := ⟨{}⟩

def ofDirection (direction : Direction) : Solver := { direction }

def withScaling (s : Solver) (scaling : Scaling) : Solver := { s with scaling }

def withVerbosity (s : Solver) (verbosity : Verbosity) : Solver := { s with verbosity }

def withTimeout (s : Solver) (timeout : Duration) : Solver := { s with timeout := some timeout }

def throwing (s : Solver) : Solver := { s with throwOnFailure := true }

/-- Choosing an engine by name drops one that was given. -/
def withChoice (s : Solver) (choice : EngineChoice) : Solver :=
  { s with choice, custom := none }

def withEngine (s : Solver) (engine : Engine) : Solver := { s with custom := some engine }

def withBeforeSolve (s : Solver) (hook : BeforeHook) : Solver :=
  { s with beforeSolve := some hook }

def withAfterSolve (s : Solver) (hook : AfterHook) : Solver := { s with afterSolve := some hook }

/-- The engine in use: the given one, or else the chosen one of those that are built in. -/
def engine (s : Solver) (k : Catalog) : Except SolveError Engine :=
  match s.custom with
  | some e => .ok e
  | none => k.engine s.choice

/-- The time limit that the engine is given, zero for none. -/
def engineSeconds (s : Solver) : UInt64 := (s.timeout.map Duration.engineSeconds).getD 0

/-- The settings as text; of the hooks it only says whether there are any. -/
def describe (s : Solver) : String :=
  let direction := match s.direction with
    | .minimize => "Minimize"
    | .maximize => "Maximize"
  let choice := match s.choice with
    | .auto => "Auto"
    | .microlp => "MicroLp"
    | .coinCbc => "CoinCbc"
    | .highs => "Highs"
  let timeout := match s.timeout with
    | some d => "Some(" ++ d.text ++ ")"
    | none => "None"
  "Solver \x7b direction: " ++ direction ++ ", scaling: Scaling(" ++ toString s.scaling.bits ++
    "), verbosity: " ++ s.verbosity.name ++ ", timeout: " ++ timeout ++ ", throw_on_failure: " ++
    toString s.throwOnFailure ++ ", backend: " ++ choice ++ ", before_solve: " ++
    toString s.beforeSolve.isSome ++ ", after_solve: " ++ toString s.afterSolve.isSome ++
    ", .. \x7d"

end Solver

end LinProg
