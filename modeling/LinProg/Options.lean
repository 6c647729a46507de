import LinProg.Direction
import LinProg.Duration
import LinProg.EngineChoice
import LinProg.Scaling
import LinProg.Verbosity

/-!
# Options

The settings of a solver that can be stored. A time limit of zero seconds is no limit.
-/

namespace LinProg

structure Options where
  direction : Direction := .minimize
  choice : EngineChoice := .auto
  scaling : Scaling := default
  verbosity : Verbosity := .important
  timeoutSeconds : Option UInt64 := none
  throwOnFailure : Bool := false
deriving Repr, DecidableEq

namespace Options

instance : Inhabited Options := ⟨{}⟩

def timeout (o : Options) : Option Duration :=
  match o.timeoutSeconds with
  | some seconds => if seconds = 0 then none else some (.ofSeconds seconds)
  | none => none

def isDefault (o : Options) : Bool := o == default

end Options

end LinProg
