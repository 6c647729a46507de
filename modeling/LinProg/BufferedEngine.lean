import LinProg.Dialogue
import LinProg.ModelEdit

/-!
# Buffered engines

A backend turns the state of a model into an outcome in one step. A buffered engine keeps that
state for it: it accepts and refuses changes as `ModelState.edit` does, runs the backend when asked
to solve, and reports the recorded outcome until the next one. Releasing a model clears it.
-/

namespace LinProg

structure Backend where
  name : String
  solve : ModelState → Outcome

namespace ModelState

/-- The reply of a buffered model to a call, and its state after it. -/
def answer (b : Backend) (s : ModelState) : (c : Call) → c.Reply × ModelState
  | .setScaling scaling => ((), (s.edit (.setScaling scaling)).2)
  | .setVerbosity level => ((), (s.edit (.setVerbosity level)).2)
  | .setTimeout seconds => ((), (s.edit (.setTimeout seconds)).2)
  | .setObjective coefficients => s.edit (.setObjective coefficients)
  | .setDirection direction => ((), (s.edit (.setMaximize (direction == .maximize))).2)
  | .addRow coefficients code rhs => s.edit (.addRow coefficients code rhs)
  | .setLowerBounds bounds => s.edit (.setLowerBounds bounds)
  | .setUpperBounds bounds => s.edit (.setUpperBounds bounds)
  | .setLowerBound column value => s.edit (.setLowerBound column value)
  | .setUpperBound column value => s.edit (.setUpperBound column value)
  | .setInteger column flag => s.edit (.setInteger column flag)
  | .setBinary column flag => s.edit (.setBinary column flag)
  | .solve =>
    let outcome := b.solve s
    (outcome.status, (s.edit (.recordOutcome outcome)).2)
  | .objective => ((s.outcome.map Outcome.objective).getD Double.zero, s)
  | .solutionCount => ((s.outcome.map Outcome.count).getD 0, s)
  | .values => (s.outcome.map Outcome.values, s)
  | .status => (s.status, s)
  | .statusText code => (LinProg.statusText code, s)
  | .iterations => ((s.outcome.map Outcome.iterations).getD 0, s)
  | .columns => (s.columns, s)
  | .rows => (s.rows.length, s)
  | .lowerBound column => (s.lowerBound? column, s)
  | .upperBound column => (s.upperBound? column, s)
  | .isInteger column => (s.isInteger column, s)
  | .isBinary column => (s.isBinary column, s)
  | .isMaximize => (s.maximize, s)
  | .scaling => (s.scaling, s)
  | .verbosity => (s.verbosity, s)
  | .timeout => (s.timeout, s)
  | .release => ((), (s.edit .clear).2)

end ModelState

def Engine.buffered (b : Backend) : Engine where
  name := b.name
  Model := ModelState
  create _ columns := some (.new columns)
  answer := ModelState.answer b

namespace Backend

/-- Reports the same outcome for every model. -/
def fixed (outcome : Outcome) : Backend where
  name := "fixed"
  solve _ := outcome

/-- Reports the bounds of a model as its solution, the upper ones for a maximum; with a status
other than zero it reports no solution. -/
def echo (status : Int) : Backend where
  name := "echo"
  solve s :=
    if status = 0 then
      let values := if s.maximize then s.upper else s.lower
      ⟨0, s.evaluate values, values, 1, s.rows.length⟩
    else .withoutSolution status s.columns

end Backend

end LinProg
