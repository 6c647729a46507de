import LinProg.Enumeration

/-!
# Choice of engine

The engine a solver takes its models from, chosen by name; `auto` leaves the choice open.
-/

namespace LinProg

inductive EngineChoice where
  | auto
  | microlp
  | coinCbc
  | highs
deriving Repr, DecidableEq

namespace EngineChoice

instance : Inhabited EngineChoice := ⟨.auto⟩

def displayName : EngineChoice → String
  | .auto => "Auto"
  | .microlp => "microlp"
  | .coinCbc => "COIN-OR CBC"
  | .highs => "HiGHS"

instance : Enumeration EngineChoice where
  members := [.auto, .microlp, .coinCbc, .highs]
  dataName
    | .auto => "auto"
    | .microlp => "microlp"
    | .coinCbc => "coin_cbc"
    | .highs => "highs"
  find_dataName a := by cases a <;> rfl

end EngineChoice

end LinProg
