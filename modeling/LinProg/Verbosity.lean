import LinProg.Enumeration

/-!
# Message levels

How much an engine reports, from 0 (nothing) to 6 (everything). Levels outside that range count as
the nearest end.
-/

namespace LinProg

inductive Verbosity where
  | neutral
  | critical
  | severe
  | important
  | normal
  | detailed
  | full
deriving Repr, DecidableEq

namespace Verbosity

instance : Inhabited Verbosity := ⟨.important⟩

def level : Verbosity → Int
  | .neutral => 0
  | .critical => 1
  | .severe => 2
  | .important => 3
  | .normal => 4
  | .detailed => 5
  | .full => 6

def ofLevel (n : Int) : Verbosity :=
  if n ≤ 0 then .neutral
  else match n with
    | 1 => .critical
    | 2 => .severe
    | 3 => .important
    | 4 => .normal
    | 5 => .detailed
    | _ => .full

def name : Verbosity → String
  | .neutral => "Neutral"
  | .critical => "Critical"
  | .severe => "Severe"
  | .important => "Important"
  | .normal => "Normal"
  | .detailed => "Detailed"
  | .full => "Full"

instance : Enumeration Verbosity where
  members := [.neutral, .critical, .severe, .important, .normal, .detailed, .full]
  dataName
    | .neutral => "neutral"
    | .critical => "critical"
    | .severe => "severe"
    | .important => "important"
    | .normal => "normal"
    | .detailed => "detailed"
    | .full => "full"
  find_dataName a := by cases a <;> rfl

end Verbosity

end LinProg
