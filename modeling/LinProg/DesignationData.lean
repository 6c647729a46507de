import LinProg.DataDecoding
import LinProg.Designation

/-!
# Designations as data

A designation is stored as its single flag, or as the list of its flags.
-/

namespace LinProg.Designation

def toData : Designation → Data
  | .perVariable flags => .list (flags.map .bool)
  | .uniform flag => .bool flag

def flag? : Data → Option Bool
  | .bool b => some b
  | _ => none

def ofData (d : Data) : Decoded Designation :=
  let read? := match d with
    | .list items => (items.mapM flag?).map perVariable
    | d => (flag? d).map uniform
  match read? with
  | some designation => .ok designation
  | none => .error (.noMatch "VariableDesignation")

end LinProg.Designation
