import LinProg.Proofs.DesignationForms
import LinProg.Proofs.SessionStages

/-!
# Mixed integer problems

Whether a problem counts as mixed integer is read off its designations without a look at the
number of variables, but which columns are marked depends on it. A flag for all variables tells the
two apart: without variables it marks nothing, and the problem still counts as mixed integer
(`isMixedInteger_without_variables`). In every other consistent problem both are the same, and an
engine is asked to mark a column just if the problem is mixed integer (`isMixedInteger_iff`).
-/

namespace LinProg

/-- A change of the type of a column. -/
def Call.isMark : Call → Bool
  | .setInteger _ _ | .setBinary _ _ => true
  | _ => false

namespace Designation

variable {d : Designation} {n : Nat}

theorem markedColumns_eq_nil_iff (h : d.Fits n) :
    d.markedColumns n = [] ↔ ∀ i < n, d.designates i = false := by
  simp [markedColumns_eq h]

/-- A designation that fits is empty just if it marks nothing, unless it is a flag for all of no
variables. -/
theorem isEmpty_iff (h : d.Fits n) :
    d.isEmpty = true ↔ d.markedColumns n = [] ∧ ¬ (n = 0 ∧ d = .uniform true) := by
  rw [markedColumns_eq_nil_iff h]
  constructor
  · intro hempty
    refine ⟨fun i _ => not_designates_of_isEmpty hempty i, ?_⟩
    rintro ⟨-, rfl⟩
    cases hempty
  · rintro ⟨hnone, hvariables⟩
    cases d with
    | uniform flag =>
      cases flag with
      | false => rfl
      | true =>
        have hpos : 0 < n := Nat.pos_of_ne_zero fun hn => hvariables ⟨hn, rfl⟩
        cases hnone 0 hpos
    | perVariable flags =>
      have hlength := fits_perVariable_iff.1 h
      have hflags : ∀ flag ∈ flags, flag = false := by
        intro flag hflag
        obtain ⟨i, hi, rfl⟩ := List.getElem_of_mem hflag
        have hfalse := hnone i (by omega)
        simpa [designates, List.getD_eq_getElem?_getD, hi] using hfalse
      simpa [isEmpty] using hflags

end Designation

namespace Problem

/-- A column of the problem is marked. -/
def HasMarks (p : Problem) : Prop :=
  p.integer.markedColumns p.columns ≠ [] ∨ p.binary.markedColumns p.columns ≠ []

end Problem

namespace Solver

variable {s : Solver} {k : Catalog} {p : Problem}

/-- The calls of a solve ask for a mark just if the problem has one. -/
theorem any_isMark_instructions (s : Solver) (p : Problem) :
    (s.instructions p).any Call.isMark = true ↔ p.HasMarks := by
  have hrows : (p.constraints.map fun c =>
      Call.addRow c.coefficients c.comparison.code c.value).any Call.isMark = false := by
    simp [Call.isMark]
  have hbounds (c : Call) (hc : c.isMark = false) (bounds : List Float) :
      (if bounds.isEmpty then [] else [c]).any Call.isMark = false := by
    split <;> simp [hc]
  have hmarks (f : Nat → Call) (hf : ∀ c, (f c).isMark = true) (cs : List Nat) :
      (cs.map f).any Call.isMark = true ↔ cs ≠ [] := by
    cases cs <;> simp [hf]
  simp only [instructions, List.any_append, Bool.or_eq_true, hrows,
    hbounds (.setLowerBounds p.lower) rfl, hbounds (.setUpperBounds p.upper) rfl,
    hmarks (fun c => .setInteger c true) fun _ => rfl,
    hmarks (fun c => .setBinary c true) fun _ => rfl, Problem.HasMarks]
  simp [Call.isMark]

/-- An engine that accepts every call is asked for a mark just if the problem has one. -/
theorem exists_mark_iff {e : Engine} {m : e.Model} (valid : p.defect? = none)
    (engine : s.engine k = .ok e) (created : e.create 0 p.columns = some m)
    (accepted : ∀ x ∈ (s.withoutHooks.solve k p).exchanges, x.call.accepted x.reply = true) :
    (∃ x ∈ (s.withoutHooks.solve k p).exchanges, x.call.isMark = true) ↔ p.HasMarks := by
  rw [exchanges_solve_withoutHooks valid engine created] at accepted ⊢
  obtain ⟨code, hcalls⟩ := calls_session_of_built
    (built_of_accepted (List.forall_mem_append.1 accepted).1)
  have hmap (xs : List Exchange) :
      (∃ x ∈ xs, x.call.isMark = true) ↔ (xs.map Exchange.call).any Call.isMark = true := by
    rw [List.any_map, List.any_eq_true]
    rfl
  have hrest : (extractionCalls code).any Call.isMark = false := rfl
  rw [hmap, List.map_append, hcalls, List.any_append, List.any_append, hrest, Bool.or_false,
    ← any_isMark_instructions s p]
  exact Iff.of_eq (congrArg (· = true) (Bool.or_false _))

end Solver

namespace Problem

/-- A problem counts as mixed integer if a column is marked, and else just if it has no variables
but a flag for all of them. An engine that accepts every call of a solve without hooks is asked for
a mark just if there is one, and a designation counts as empty just if no variable carries it and it
is no flag for all of no variables. -/
theorem isMixedInteger_iff (p : Problem) (valid : p.defect? = none) :
    (p.isMixedInteger = true ↔
      p.HasMarks ∨ p.columns = 0 ∧ (p.integer = .uniform true ∨ p.binary = .uniform true)) ∧
    (∀ d ∈ [p.integer, p.binary],
      (d.markedColumns p.columns = [] ↔ ∀ i < p.columns, d.designates i = false) ∧
      (d.isEmpty = true ↔
        (∀ i < p.columns, d.designates i = false) ∧ ¬ (p.columns = 0 ∧ d = .uniform true))) ∧
    ∀ (s : Solver) (k : Catalog) (e : Engine) (m : e.Model), s.engine k = .ok e →
      e.create 0 p.columns = some m →
      (∀ x ∈ (s.withoutHooks.solve k p).exchanges, x.call.accepted x.reply = true) →
      ((∃ x ∈ (s.withoutHooks.solve k p).exchanges, x.call.isMark = true) ↔ p.HasMarks) := by
  have hc := defect?_eq_none_iff.1 valid
  refine ⟨?_, ?_, fun s k e m engine created accepted =>
    Solver.exists_mark_iff valid engine created accepted⟩
  · have hempty {d : Designation} (fits : d.Fits p.columns) : d.isEmpty = false ↔
        d.markedColumns p.columns ≠ [] ∨ p.columns = 0 ∧ d = .uniform true := by
      rw [← Bool.not_eq_true, Designation.isEmpty_iff fits, Classical.not_and_iff_not_or_not,
        Classical.not_not]
    rw [isMixedInteger, Bool.or_eq_true, Bool.not_eq_true', Bool.not_eq_true',
      hempty hc.integer, hempty hc.binary, HasMarks, and_or_left]
    exact or_or_or_comm
  · intro d hd
    have fits : d.Fits p.columns := by
      simp only [List.mem_cons, List.not_mem_nil, or_false] at hd
      rcases hd with rfl | rfl
      · exact hc.integer
      · exact hc.binary
    have hmarked := Designation.markedColumns_eq_nil_iff fits
    refine ⟨hmarked, ?_⟩
    rw [← hmarked]
    exact Designation.isEmpty_iff fits

/-- A problem with two variables of which the second is integer. -/
def oneInteger : Problem where
  objective := [Double.zero, Double.zero]
  integer := .perVariable [false, true]

theorem oneInteger_isMixedInteger :
    let s := ((Solver.ofDirection .minimize).withEngine (.buffered (.echo 0))).withoutHooks
    oneInteger.defect? = none ∧ oneInteger.isMixedInteger = true ∧
    (oneInteger.binary.isEmpty = true ↔
      (∀ i < 2, oneInteger.binary.designates i = false) ∧
        ¬ (2 = 0 ∧ oneInteger.binary = .uniform true)) ∧
    (∀ x ∈ (s.solve .standard oneInteger).exchanges, x.call.accepted x.reply = true) ∧
    ∃ x ∈ (s.solve .standard oneInteger).exchanges, x.call.isMark = true := by
  intro s
  have marks : oneInteger.HasMarks := .inl nofun
  have accepted : ∀ x ∈ (s.solve .standard oneInteger).exchanges,
      x.call.accepted x.reply = true := by
    decide
  obtain ⟨mixed, empty, asked⟩ := isMixedInteger_iff oneInteger rfl
  exact ⟨rfl, mixed.2 (.inl marks), (empty _ (by simp)).2, accepted,
    (asked s .standard _ _ rfl rfl accepted).2 marks⟩

/-- A flag for all variables of a problem that has none. -/
theorem isMixedInteger_without_variables :
    let p : Problem := { integer := .uniform true }
    p.defect? = none ∧ p.columns = 0 ∧ p.isMixedInteger = true ∧ ¬ p.HasMarks ∧
    p.integer.isEmpty = false ∧ ∀ i < p.columns, p.integer.designates i = false := by
  intro p
  refine ⟨rfl, rfl, rfl, ?_, rfl, ?_⟩
  · rintro (h | h)
    · exact h rfl
    · exact h rfl
  · intro i hi
    cases hi

end Problem

end LinProg
