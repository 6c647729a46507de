import LinProg.ExactSolver
import LinProg.Proofs.HookFrame

/-!
# What becomes of the answer of a solver

A backend that is made of a numeric solver reports each of its answers as an outcome of the right
shape: as many values as the model has columns, no iterations, a status of its own for every kind of
answer, and a solution just with the optimal one (`WellFormed`, `Reports`). A solve whose hooks end
well passes the outcome on unchanged (`result_solve_of_ended`), so none of these facts depends on
what the solver computes or on what the hooks have changed.
-/

namespace LinProg

namespace Outcome

/-- An outcome for a model of `n` columns, with a solution just if the status is zero. -/
structure WellFormed (o : Outcome) (n : Nat) : Prop where
  values : o.values.length = n
  iterations : o.iterations = 0
  count : o.count = if o.status = 0 then 1 else 0

/-- Nothing but zeros. -/
structure IsZero (o : Outcome) : Prop where
  objective : o.objective = Double.zero
  values : ∀ v ∈ o.values, v = Double.zero

/-- The outcome says of a model what a solver has answered. -/
def Reports (o : Outcome) (s : ModelState) : SolverAnswer → Prop
  | .values value =>
    o.status = 0 ∧ (∀ i < s.columns, o.values[i]? = some (value i)) ∧
      o.objective = s.evaluate o.values
  | .infeasible => o.status = 2 ∧ o.IsZero
  | .unbounded => o.status = 3 ∧ o.IsZero
  | .failed => o.status = 5 ∧ o.IsZero

variable {o : Outcome} {s : ModelState} {a : SolverAnswer} {n : Nat} {status : Int}

theorem wellFormed_withoutSolution (h : status ≠ 0) :
    (withoutSolution status n).WellFormed n where
  values := List.length_replicate
  iterations := rfl
  count := (if_neg h).symm

theorem isZero_withoutSolution : (withoutSolution status n).IsZero where
  objective := rfl
  values _ := List.eq_of_mem_replicate

theorem WellFormed.isOptimal_solution_iff (h : o.WellFormed n) :
    o.solution.isOptimal = true ↔ o.solution.count = 1 := by
  rw [Solution.isOptimal_iff, solution, h.count]
  split <;> simp [*]

/-- The codes of the four kinds of answers, each with its text. -/
theorem Reports.status_text_mem (h : o.Reports s a) :
    (o.solution.code, o.solution.status) ∈
      [(0, "OPTIMAL solution"), (2, "Model is primal INFEASIBLE"),
        (3, "Model is primal UNBOUNDED"), (5, "NUMERIC FAILURE encountered")] := by
  cases a <;> simp [solution, h.1, statusText]

end Outcome

namespace SolverAnswer

theorem outcome_wellFormed (a : SolverAnswer) (s : ModelState) :
    (a.outcome s).WellFormed s.columns := by
  cases a with
  | values value => exact ⟨by simp [outcome], rfl, rfl⟩
  | infeasible | unbounded | failed => exact Outcome.wellFormed_withoutSolution (by decide)

theorem outcome_reports (a : SolverAnswer) (s : ModelState) : (a.outcome s).Reports s a := by
  cases a with
  | values value =>
    refine ⟨rfl, ?_, rfl⟩
    intro i hi
    simp [outcome, hi]
  | infeasible | unbounded | failed => exact ⟨rfl, Outcome.isZero_withoutSolution⟩

end SolverAnswer

namespace Solver

/-- Whatever a solver answers, its backend has a well-formed outcome for every model, and every
solve of a valid problem whose hooks end well has a solution that says the same. -/
theorem ofSolver_results (name : String) (solver : LinearProgram → SolverAnswer) :
    (∀ n t, ModelState.Reachable n t → ∃ q, LinearProgram.lookUp? t = some q ∧
      q.columns.length = t.columns ∧
      ((Backend.ofSolver name solver).solve t).WellFormed t.columns ∧
      ((Backend.ofSolver name solver).solve t).Reports t (solver q)) ∧
    ∀ (s : Solver) (k : Catalog) (p : Problem),
      s.engine k = .ok (.buffered (.ofSolver name solver)) → p.defect? = none →
      s.throwOnFailure = false →
      (s.beforeRun p (.buffered (.ofSolver name solver)) (.new p.columns)).value.2 = .ok →
      (s.afterRun p (.buffered (.ofSolver name solver)) (.new p.columns)).value.2 = .ok →
      ∃ solution, (s.solve k p).result = .ok solution ∧
        solution.values.length = p.columns ∧
        (solution.code, solution.status) ∈
          [(0, "OPTIMAL solution"), (2, "Model is primal INFEASIBLE"),
            (3, "Model is primal UNBOUNDED"), (5, "NUMERIC FAILURE encountered")] ∧
        (solution.isOptimal = true ↔ solution.count = 1) ∧
        ∃ t q, ∃ o : Outcome, (s.reference p).Frame t ∧ LinearProgram.lookUp? t = some q ∧
          o.Reports t (solver q) ∧ solution = o.solution := by
  refine ⟨?_, ?_⟩
  · rintro n t ⟨es, rfl⟩
    have wellFormed := (ModelState.wellFormed_new n).editAll es
    exact ⟨_, LinearProgram.lookUp?_eq wellFormed, LinearProgram.length_columnsOf wellFormed,
      SolverAnswer.outcome_wellFormed .., SolverAnswer.outcome_reports ..⟩
  · intro s k p engine valid lenient before after
    let b := Backend.ofSolver name solver
    let t : ModelState := (s.beforeRun p (.buffered b) (.new p.columns)).model
    have hframe : (s.reference p).Frame t :=
      frame_beforeRun s b (Problem.defect?_eq_none_iff.1 valid)
    have hcolumns : t.columns = p.columns := hframe.columns
    have wellFormed : (b.solve t).WellFormed t.columns := SolverAnswer.outcome_wellFormed ..
    have reports : (b.solve t).Reports t (solver (.ofModel t)) := SolverAnswer.outcome_reports ..
    refine ⟨(b.solve t).solution, ?_, wellFormed.values.trans hcolumns, reports.status_text_mem,
      wellFormed.isOptimal_solution_iff, t, _, _, hframe,
      LinearProgram.lookUp?_eq (wellFormed_beforeRun s p b p.columns), reports, rfl⟩
    rw [result_solve_of_ended engine valid before after]
    apply judge_of_fine
    intro throws
    rw [lenient] at throws
    cases throws

/-- The hooks of `hookedSolver`, with a solver that finds every program unbounded. -/
def unboundedSolver : Solver :=
  hookedSolver.withEngine (.buffered (.ofSolver "unbounded" fun _ => .unbounded))

theorem unboundedSolver_result :
    ∃ solution, (unboundedSolver.solve .standard mixedProblem).result = .ok solution ∧
      solution.values.length = 3 ∧ (∀ v ∈ solution.values, v = Double.zero) ∧
      solution.code = 3 ∧ solution.isOptimal = false ∧ solution.count ≠ 1 := by
  obtain ⟨solution, result, length, -, optimal, t, q, o, -, -, ⟨status, zero⟩, rfl⟩ :=
    (ofSolver_results "unbounded" fun _ => .unbounded).2 unboundedSolver .standard mixedProblem
      rfl rfl rfl rfl rfl
  have hoptimal : ¬ o.solution.isOptimal = true := by
    intro hfound
    have hzero : o.status = 0 := (Solution.isOptimal_iff _).1 hfound
    omega
  exact ⟨o.solution, result, length, zero.values, status, Bool.eq_false_iff.2 hoptimal,
    fun hcount => hoptimal (optimal.2 hcount)⟩

end Solver

end LinProg
