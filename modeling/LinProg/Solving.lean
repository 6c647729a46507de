import LinProg.Solver

/-!
# Solving a problem

A solve validates the problem, takes a model from the engine, leads one dialogue with it and
releases it. The dialogue configures and builds the model, stopping at the first change that is
refused; runs the first hook; solves, and asks for the result; and runs the second hook. However
it ends, the release comes last, and only then a status that is not optimal may count as an error.

`Solver.instructions` lists the configuring and building calls in order, and `Solver.session` is
the dialogue up to the release.
-/

namespace LinProg

/-- Why a solve has no solution: an error, or a panic of a hook. -/
inductive Failure where
  | error (e : SolveError)
  | panic (message : String)
deriving Repr, DecidableEq

def HookEnd.failure? (stage : String) : HookEnd → Option Failure
  | .ok => none
  | .failed message => some (.error (.hookFailed stage message))
  | .panicked message => some (.panic message)

/-- The result of a dialogue, with the notes of the two hooks. -/
structure Session where
  result : Except Failure Solution
  before : List Observation := []
  after : List Observation := []

/-- A session with what was asked of the engine: the size of the model, and the calls on it. -/
structure Report extends Session where
  created : Option (Nat × Nat) := none
  exchanges : List Exchange := []

namespace Solver

/-- The calls that a solver makes, in order, to configure a model and to build a problem in it. The
marks are read off the designations, also where these are longer than there are variables. -/
def instructions (s : Solver) (p : Problem) : List Call :=
  [.setScaling s.scaling, .setVerbosity s.verbosity.level, .setTimeout s.engineSeconds,
    .setObjective p.objective, .setDirection s.direction] ++
  p.constraints.map (fun c => .addRow c.coefficients c.comparison.code c.value) ++
  (if p.lower.isEmpty then [] else [.setLowerBounds p.lower]) ++
  (if p.upper.isEmpty then [] else [.setUpperBounds p.upper]) ++
  (p.integer.markedColumns p.columns).map (fun c => .setInteger c true) ++
  (p.binary.markedColumns p.columns).map (fun c => .setBinary c true)

/-- Asks the calls in order up to the first that is refused. -/
def build : List Call → Dialogue (Option Call)
  | [] => .done none
  | c :: cs => .ask c fun r => if c.accepted r then build cs else .done (some c)

/-- Solves a model and asks for its result. -/
def extract : Dialogue Solution :=
  .ask .solve fun _ =>
  .ask .objective fun objective =>
  .ask .solutionCount fun count =>
  .ask .values fun values =>
  .ask .status fun code =>
  .ask (.statusText code) fun status =>
  .ask .iterations fun iterations =>
  .done ⟨objective, count, values.getD [], code, status, iterations⟩

/-- The dialogue of a hook, where there is one. -/
def runHook : Option Hook → Dialogue (List Observation × HookEnd)
  | some h => h.dialogue
  | none => .done ([], .ok)

def session (s : Solver) (p : Problem) : Dialogue Session := do
  match ← build (s.instructions p) with
  | some c => return ⟨.error (.error (.engineRejected c.name)), [], []⟩
  | none =>
    let (before, ending) ← runHook (s.beforeSolve.map (· p))
    match ending.failure? "before_solve" with
    | some f => return ⟨.error f, before, []⟩
    | none =>
      let solution ← extract
      let (after, ending) ← runHook (s.afterSolve.map (· p solution))
      match ending.failure? "after_solve" with
      | some f => return ⟨.error f, before, after⟩
      | none => return ⟨.ok solution, before, after⟩

/-- A solution that is not optimal is an error to a solver that throws. -/
def judge (s : Solver) (solution : Solution) : Except Failure Solution :=
  if s.throwOnFailure && solution.code != Status.optimal.code then
    .error (.error (.solveFailed solution.status solution.code))
  else .ok solution

/-- The session with the release of the model at its end. -/
def conversation (s : Solver) (p : Problem) : Dialogue Session := do
  let session ← s.session p
  let _ ← Dialogue.call .release
  return session

/-- What a visit to the engine comes to. -/
def report (s : Solver) (v : Visit Session) : Report :=
  match v.value with
  | none =>
    { result := .error (.error (.engineUnavailable "Unable to create new LP model"))
      created := some v.size
      exchanges := v.exchanges }
  | some session =>
    { session with
      result := session.result.bind s.judge
      created := some v.size
      exchanges := v.exchanges }

def solve (s : Solver) (k : Catalog) (p : Problem) : Report :=
  match p.defect? with
  | some d => { result := .error (.error d.error) }
  | none =>
    match s.engine k with
    | .error e => { result := .error (.error e) }
    | .ok e => s.report (e.visit 0 p.columns (s.conversation p))

end Solver

end LinProg
