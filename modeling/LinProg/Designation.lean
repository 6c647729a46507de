/-!
# Designations of variables

A designation says which variables of a problem are integer, or binary: one flag for each
variable in objective order, or a single flag for all of them. Missing flags are false. Engines
count columns from one, so the columns to mark are one more than the positions of the flags.
-/

namespace LinProg

inductive Designation where
  | perVariable (flags : List Bool)
  | uniform (flag : Bool)
deriving Repr, DecidableEq

namespace Designation

instance : Inhabited Designation := ⟨.perVariable []⟩

/-- Whether the variable at a position, counted from zero, carries the designation. -/
def designates : Designation → Nat → Bool
  | .perVariable flags, i => flags.getD i false
  | .uniform flag, _ => flag

/-- The columns to mark in a model of `n` columns, in increasing order. -/
def markedColumns (n : Nat) : Designation → List Nat
  | .perVariable flags => flags.zipIdx.filterMap fun f => if f.1 then some (f.2 + 1) else none
  | .uniform true => List.range' 1 n
  | .uniform false => []

/-- None of the flags is true. -/
def isEmpty : Designation → Bool
  | .perVariable flags => !flags.any id
  | .uniform flag => !flag

/-- The number of flags, where there is one for each variable. -/
def length? : Designation → Option Nat
  | .perVariable flags => some flags.length
  | .uniform _ => none

theorem not_designates_of_isEmpty {d : Designation} (h : d.isEmpty = true) (i : Nat) :
    d.designates i = false := by
  cases d with
  | uniform flag => simpa [isEmpty, designates] using h
  | perVariable flags =>
    simp only [isEmpty, Bool.not_eq_eq_eq_not, Bool.not_true, List.any_eq_false, id] at h
    simp only [designates, List.getD_eq_getElem?_getD]
    cases hi : flags[i]? with
    | none => rfl
    | some f => simpa using h f (List.mem_of_getElem? hi)

end Designation

end LinProg
