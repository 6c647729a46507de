import LinProg.Hook

/-!
# Hook scripts

A hook script is a list of steps, each of which makes its calls on the model and notes what it
saw. An error or a panic ends the script early.
-/

namespace LinProg

inductive HookStep where
  | setTimeout (seconds : UInt64)
  | setVerbosity (verbosity : Verbosity)
  | setScaling (scaling : Scaling)
  | setLowerBound (column : Nat) (value : Float)
  | setUpperBound (column : Nat) (value : Float)
  | setInteger (column : Nat) (flag : Bool)
  | setBinary (column : Nat) (flag : Bool)
  | column (column : Nat)
  | model
  | problem
  | solution
  | fail (message : String)
  | panic (message : String)

namespace HookStep

/-- The part of a hook that makes one change and notes whether it was accepted. -/
def change (c : Call) (h : c.OpenToHooks) (reply : c.Reply → Observation) (next : Hook) : Hook :=
  .call c h fun r => .note (reply r) next

def lookAtColumn (c : Nat) (next : Hook) : Hook :=
  .call (.lowerBound c) rfl fun lower =>
  .call (.upperBound c) rfl fun upper =>
  .call (.isInteger c) rfl fun integer =>
  .call (.isBinary c) rfl fun binary =>
  .note (.column ⟨lower, upper, integer, binary⟩) next

def lookAtModel (next : Hook) : Hook :=
  .call .columns rfl fun n =>
  .call .rows rfl fun m =>
  .call .isMaximize rfl fun maximize =>
  .call .scaling rfl fun scaling =>
  .call .verbosity rfl fun level =>
  .call .timeout rfl fun timeout =>
  .call .status rfl fun status =>
  .call .iterations rfl fun iterations =>
  .note (.model n m maximize scaling (.ofLevel level) timeout status iterations) next

/-- One step of a script, and the rest of the hook behind it. -/
def hook (p : Problem) (s : Option Solution) (step : HookStep) (next : Hook) : Hook :=
  match step with
  | .setTimeout seconds => change (.setTimeout seconds) rfl (fun _ => .nothing) next
  | .setVerbosity v => change (.setVerbosity v.level) rfl (fun _ => .nothing) next
  | .setScaling scaling => change (.setScaling scaling) rfl (fun _ => .nothing) next
  | .setLowerBound c value => change (.setLowerBound c value) rfl .accepted next
  | .setUpperBound c value => change (.setUpperBound c value) rfl .accepted next
  | .setInteger c flag => change (.setInteger c flag) rfl .accepted next
  | .setBinary c flag => change (.setBinary c flag) rfl .accepted next
  | .column c => lookAtColumn c next
  | .model => lookAtModel next
  | .problem => .note (.problem p.rows p.columns p.isMixedInteger) next
  | .solution => .note (.solution s) next
  | .fail message => .finish (.failed message)
  | .panic message => .finish (.panicked message)

end HookStep

/-- The hook that a script describes. -/
def Hook.ofScript (script : List HookStep) (p : Problem) (s : Option Solution) : Hook :=
  script.foldr (HookStep.hook p s) (.finish .ok)

end LinProg
