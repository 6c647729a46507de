import LinProg.Problem

/-!
# Consistent problems

The parts of a consistent problem fit the number of its variables, and these are the problems
without a defect (`defect?_eq_none_iff`). A designation that fits marks the columns of the variables
that carry it, in increasing order (`markedColumns_eq`).
-/

namespace LinProg

namespace Designation

/-- There are no flags beyond the first `n` variables. -/
def Fits (d : Designation) (n : Nat) : Prop := ∀ k, d.length? = some k → k ≤ n

theorem filterMap_zipIdx_eq (flags : List Bool) (k n : Nat) (h : flags.length ≤ n) :
    ((flags.zipIdx k).filterMap fun f => if f.1 then some (f.2 + 1) else none) =
      ((List.range' k n).filter fun i => flags.getD (i - k) false).map (· + 1) := by
  induction flags generalizing k n with
  | nil => simp
  | cons b flags ih =>
    obtain ⟨n, rfl⟩ : ∃ n', n = n' + 1 := ⟨n - 1, by simp at h; omega⟩
    have hrest : (List.range' (k + 1) n).filter (fun i => (b :: flags).getD (i - k) false) =
        (List.range' (k + 1) n).filter fun i => flags.getD (i - (k + 1)) false := by
      apply List.filter_congr
      intro i hi
      obtain ⟨j, rfl⟩ : ∃ j, i = j + (k + 1) := ⟨i - (k + 1), by simp at hi; omega⟩
      rw [show j + (k + 1) - k = j + 1 by omega, Nat.add_sub_cancel, List.getD_cons_succ]
    rw [List.zipIdx_cons, List.range'_succ, List.filterMap_cons, List.filter_cons, hrest,
      ih (k + 1) n (by simpa using h)]
    cases b <;> simp

theorem markedColumns_eq {d : Designation} {n : Nat} (h : d.Fits n) :
    d.markedColumns n = ((List.range n).filter d.designates).map (· + 1) := by
  cases d with
  | perVariable flags =>
    have hf := filterMap_zipIdx_eq flags 0 n (h _ rfl)
    rw [← List.range_eq_range'] at hf
    exact hf
  | uniform flag =>
    cases flag with
    | true =>
      have hall : (List.range n).filter (uniform true).designates = List.range n :=
        List.filter_eq_self.2 fun _ _ => rfl
      simp [hall, markedColumns, List.range'_eq_map_range, Nat.add_comm]
    | false =>
      have hnone : (List.range n).filter (uniform false).designates = [] :=
        List.filter_eq_nil_iff.2 (by simp [designates])
      rw [hnone]
      rfl

end Designation

namespace Problem

structure Consistent (p : Problem) : Prop where
  constraints : ∀ c ∈ p.constraints, c.coefficients.length = p.columns
  lower : p.lower = [] ∨ p.lower.length = p.columns
  upper : p.upper = [] ∨ p.upper.length = p.columns
  integer : p.integer.Fits p.columns
  binary : p.binary.Fits p.columns

theorem findSome?_constraintDefect?_eq_none_iff {n : Nat} {cs : List Constraint} :
    cs.zipIdx.findSome? (constraintDefect? n) = none ↔
      ∀ c ∈ cs, c.coefficients.length = n := by
  rw [List.findSome?_eq_none_iff]
  constructor
  · intro h c hc
    obtain ⟨i, hi⟩ := List.mem_iff_getElem?.1 hc
    simpa [constraintDefect?] using h (c, i) (List.mk_mem_zipIdx_iff_getElem?.2 hi)
  · rintro h ⟨c, i⟩ hc
    simp [constraintDefect?, h c (List.fst_mem_of_mem_zipIdx hc)]

theorem boundsDefect?_eq_none_iff {n : Nat} {part : Part} {bounds : List Float} :
    boundsDefect? n part bounds = none ↔ bounds = [] ∨ bounds.length = n := by
  unfold boundsDefect?
  split <;> simp_all

theorem designationDefect?_eq_none_iff {n : Nat} {part : Part} {d : Designation} :
    designationDefect? n part d = none ↔ d.Fits n := by
  unfold designationDefect? Designation.Fits
  cases d.length? <;> simp

theorem defect?_eq_none_iff {p : Problem} : p.defect? = none ↔ p.Consistent := by
  simp only [defect?, Option.or_eq_none_iff, findSome?_constraintDefect?_eq_none_iff,
    boundsDefect?_eq_none_iff, designationDefect?_eq_none_iff]
  constructor
  · rintro ⟨constraints, lower, upper, integer, binary⟩
    exact ⟨constraints, lower, upper, integer, binary⟩
  · rintro ⟨constraints, lower, upper, integer, binary⟩
    exact ⟨constraints, lower, upper, integer, binary⟩

end Problem

end LinProg
