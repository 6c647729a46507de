/-!
# Scaling modes

A scaling mode is a set of bits: a base mode in the lowest three, and modifiers above them.
-/

namespace LinProg

structure Scaling where
  bits : UInt32
deriving Repr, DecidableEq

namespace Scaling

instance : Inhabited Scaling := ⟨⟨0⟩⟩

instance : OrOp Scaling := ⟨fun a b => ⟨a.bits ||| b.bits⟩⟩

/-- The base mode, without modifiers. -/
def mode (s : Scaling) : UInt32 := s.bits &&& 7

/-- All bits of `t` are set in `s`. -/
def contains (s t : Scaling) : Bool := s.bits &&& t.bits == t.bits

/-- The scaling modes and modifiers that have a name. -/
def named : List (String × Scaling) :=
  [("NONE", ⟨0⟩), ("EXTREME", ⟨1⟩), ("RANGE", ⟨2⟩), ("MEAN", ⟨3⟩), ("GEOMETRIC", ⟨4⟩),
    ("CURTISREID", ⟨7⟩), ("QUADRATIC", ⟨8⟩), ("LOGARITHMIC", ⟨16⟩), ("USERWEIGHT", ⟨31⟩),
    ("POWER2", ⟨32⟩), ("EQUILIBRATE", ⟨64⟩), ("INTEGERS", ⟨128⟩), ("DYNUPDATE", ⟨256⟩),
    ("ROWSONLY", ⟨512⟩), ("COLSONLY", ⟨1024⟩)]

def ofName? (name : String) : Option Scaling := named.lookup name

end Scaling

end LinProg
