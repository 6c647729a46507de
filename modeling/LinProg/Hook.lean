import LinProg.Dialogue
import LinProg.ModelState
import LinProg.Problem
import LinProg.Solution
import LinProg.Verbosity

/-!
# Hooks

A hook is a tree of calls on a live model, made just before or just after it is solved. It may
make only the calls that are open to hooks, may note what it saw, and ends well, with an error or
in a panic. `Hook.dialogue` is the part of the whole dialogue that a hook leads.
-/

namespace LinProg

/-- What a hook may note: a reply, or a look at the column, the model, the problem or the
solution. -/
inductive Observation where
  | nothing
  | accepted (flag : Bool)
  | column (view : ColumnView)
  | model (columns rows : Nat) (maximize : Bool) (scaling : Scaling) (verbosity : Verbosity)
      (timeout : UInt64) (status : Int) (iterations : Nat)
  | problem (rows columns : Nat) (mixedInteger : Bool)
  | solution (solution : Option Solution)

inductive HookEnd where
  | ok
  | failed (message : String)
  | panicked (message : String)
deriving Repr, DecidableEq

inductive Hook where
  | finish (ending : HookEnd)
  | call (c : Call) (isOpen : c.OpenToHooks) (next : c.Reply → Hook)
  | note (o : Observation) (next : Hook)

namespace Hook

/-- The calls of a hook, with its notes in order and its ending as the value. -/
def dialogue : Hook → Dialogue (List Observation × HookEnd)
  | .finish ending => .done ([], ending)
  | .call c _ next => .ask c fun r => dialogue (next r)
  | .note o next => (dialogue next).bind fun v => .done (o :: v.1, v.2)

end Hook

/-- A hook that runs before the model is solved may look at the problem. -/
abbrev BeforeHook := Problem → Hook

/-- A hook that runs after the model was solved may look at the solution too. -/
abbrev AfterHook := Problem → Solution → Hook

end LinProg
