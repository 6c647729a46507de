import LinProg.ModelState

/-!
# Edits of a model

The changes that can be made to the state of a model, as data. `ModelState.edit` makes one, and a
refused change leaves the state as it is; `ModelState.editAll` makes them one after the other.
-/

namespace LinProg

inductive ModelEdit where
  | setScaling (scaling : Scaling)
  | setVerbosity (level : Int)
  | setTimeout (seconds : UInt64)
  | setMaximize (flag : Bool)
  | setObjective (coefficients : List Float)
  | addRow (coefficients : List Float) (code : Int) (rhs : Float)
  | setLowerBounds (bounds : List Float)
  | setUpperBounds (bounds : List Float)
  | setLowerBound (column : Nat) (value : Float)
  | setUpperBound (column : Nat) (value : Float)
  | setInteger (column : Nat) (flag : Bool)
  | setBinary (column : Nat) (flag : Bool)
  | recordOutcome (outcome : Outcome)
  | clear

namespace ModelState

def edit? (s : ModelState) : ModelEdit → Option ModelState
  | .setScaling scaling => some { s with scaling }
  | .setVerbosity level => some { s with verbosity := level }
  | .setTimeout seconds => some { s with timeout := seconds }
  | .setMaximize flag => some { s with maximize := flag }
  | .setObjective coefficients => s.setObjective coefficients
  | .addRow coefficients code rhs => s.addRow coefficients code rhs
  | .setLowerBounds bounds => s.setLowerBounds bounds
  | .setUpperBounds bounds => s.setUpperBounds bounds
  | .setLowerBound column value => s.setLowerBound column value
  | .setUpperBound column value => s.setUpperBound column value
  | .setInteger column flag => s.setInteger column flag
  | .setBinary column flag => s.setBinary column flag
  | .recordOutcome outcome => some { s with outcome := some outcome }
  | .clear => some (new 0)

/-- Whether the change was accepted, and the state after it. -/
def edit (s : ModelState) (e : ModelEdit) : Bool × ModelState :=
  match s.edit? e with
  | some t => (true, t)
  | none => (false, s)

def editAll (s : ModelState) (es : List ModelEdit) : ModelState :=
  es.foldl (fun s e => (s.edit e).2) s

/-- The states that edits lead to from a fresh model of `n` columns. -/
def Reachable (n : Nat) (s : ModelState) : Prop := ∃ es, s = (new n).editAll es

theorem edit_eq_of_refused {s : ModelState} {e : ModelEdit} (h : (s.edit e).1 = false) :
    (s.edit e).2 = s := by
  unfold edit at h ⊢
  split <;> simp_all

theorem editAll_append (s : ModelState) (es fs : List ModelEdit) :
    s.editAll (es ++ fs) = (s.editAll es).editAll fs :=
  List.foldl_append ..

end ModelState

end LinProg
