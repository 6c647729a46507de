import LinProg.BufferedEngine

/-!
# Scripted engines

An engine whose results are given in advance, for trying out what a solver does with them. It
keeps the settings of its models like a buffered engine, but can be told to refuse all models or
chosen changes, and its results do not depend on the model. Status and iteration count are those
of an unsolved model until it is solved.
-/

namespace LinProg

structure EngineScript where
  status : Int
  objective : Float
  count : Nat
  values : Option (List Float)
  iterations : Nat
  /-- No model is handed out. -/
  refusesModels : Bool := false
  /-- The changes that every model refuses, by name. -/
  refusedChanges : List String := []

namespace EngineScript

structure Model where
  settings : ModelState
  solved : Bool

def Model.edit (m : Model) (e : ModelEdit) : Bool × Model :=
  let (accepted, settings) := m.settings.edit e
  (accepted, { m with settings })

/-- The reply to a change, which may be one of those to refuse. -/
def change (e : EngineScript) (m : Model) (name : String) (edit : ModelEdit) : Bool × Model :=
  if e.refusedChanges.contains name then (false, m) else m.edit edit

def answer (e : EngineScript) (m : Model) : (c : Call) → c.Reply × Model
  | .setScaling scaling => ((), (m.edit (.setScaling scaling)).2)
  | .setVerbosity level => ((), (m.edit (.setVerbosity level)).2)
  | .setTimeout seconds => ((), (m.edit (.setTimeout seconds)).2)
  | .setDirection direction => ((), (m.edit (.setMaximize (direction == .maximize))).2)
  | .release => ((), (m.edit .clear).2)
  | c@(.setObjective coefficients) => e.change m c.name (.setObjective coefficients)
  | c@(.addRow coefficients code rhs) => e.change m c.name (.addRow coefficients code rhs)
  | c@(.setLowerBounds bounds) => e.change m c.name (.setLowerBounds bounds)
  | c@(.setUpperBounds bounds) => e.change m c.name (.setUpperBounds bounds)
  | c@(.setLowerBound column value) => e.change m c.name (.setLowerBound column value)
  | c@(.setUpperBound column value) => e.change m c.name (.setUpperBound column value)
  | c@(.setInteger column flag) => e.change m c.name (.setInteger column flag)
  | c@(.setBinary column flag) => e.change m c.name (.setBinary column flag)
  | .solve => (e.status, { m with solved := true })
  | .objective => (e.objective, m)
  | .solutionCount => (e.count, m)
  | .values => (e.values, m)
  | .status => (if m.solved then e.status else notSolved, m)
  | .statusText code => (s!"fake status {code}", m)
  | .iterations => (if m.solved then e.iterations else 0, m)
  | .columns => (m.settings.columns, m)
  | .rows => (m.settings.rows.length, m)
  | .lowerBound column => (m.settings.lowerBound? column, m)
  | .upperBound column => (m.settings.upperBound? column, m)
  | .isInteger column => (m.settings.isInteger column, m)
  | .isBinary column => (m.settings.isBinary column, m)
  | .isMaximize => (m.settings.maximize, m)
  | .scaling => (m.settings.scaling, m)
  | .verbosity => (m.settings.verbosity, m)
  | .timeout => (m.settings.timeout, m)

end EngineScript

def Engine.scripted (e : EngineScript) : Engine where
  name := "recording"
  Model := EngineScript.Model
  create _ columns := if e.refusesModels then none else some ⟨.new columns, false⟩
  answer := e.answer

end LinProg
