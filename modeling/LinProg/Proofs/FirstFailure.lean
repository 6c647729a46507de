import LinProg.Proofs.CallOrder

/-!
# The first failing stage decides the result

`Solver.Yields` lists the ways a solve can end, in the order of its stages, each on the condition
that the stages before it went well. A solve has exactly the result that these rules give
(`result_eq_iff_yields`), so nothing else has a say in it: not the value that the solve of the
model returns, and no reply that was given to a hook.
-/

namespace LinProg.Solver

inductive Yields (s : Solver) (k : Catalog) (p : Problem) : Except Failure Solution → Prop
  | defect {d : Problem.Defect} (found : p.defect? = some d) :
      Yields s k p (.error (.error (.dimensionMismatch d.part.name d.expected d.actual)))
  | noEngine {err : SolveError} (valid : p.defect? = none) (missing : s.engine k = .error err) :
      Yields s k p (.error (.error err))
  | noModel {e : Engine} (valid : p.defect? = none) (engine : s.engine k = .ok e)
      (refused : e.create 0 p.columns = none) :
      Yields s k p (.error (.error (.engineUnavailable "Unable to create new LP model")))
  | conversation {e : Engine} {m m' : e.Model} {xs : List Exchange}
      {r : Except Failure Solution} (valid : p.defect? = none) (engine : s.engine k = .ok e)
      (created : e.create 0 p.columns = some m) (conducts : e.Conducts m xs m')
      (course : s.Course p xs r) : Yields s k p r

variable {s : Solver} {k : Catalog} {p : Problem} {r : Except Failure Solution}

theorem yields_result (s : Solver) (k : Catalog) (p : Problem) :
    s.Yields k p (s.solve k p).result := by
  cases hd : p.defect? with
  | some d =>
    rw [solve_of_defect hd]
    exact .defect hd
  | none =>
    cases he : s.engine k with
    | error err =>
      rw [solve_of_noEngine hd he]
      exact .noEngine hd he
    | ok e =>
      cases hm : e.create 0 p.columns with
      | none =>
        rw [solve_of_noModel hd he hm]
        exact .noModel hd he hm
      | some m =>
        rw [solve_of_created hd he hm]
        have hpath := Dialogue.path_run e (s.session p) m
        exact .conversation hd he hm (Dialogue.conducts_run e (s.session p) m)
          (course_of_path (Problem.defect?_eq_none_iff.1 hd) hpath)

theorem Yields.result_eq (h : s.Yields k p r) : (s.solve k p).result = r := by
  cases h with
  | defect found =>
    rw [solve_of_defect found]
    rfl
  | noEngine valid missing => rw [solve_of_noEngine valid missing]
  | noModel valid engine refused => rw [solve_of_noModel valid engine refused]
  | conversation valid engine created conducts course =>
    exact (course.solve_eq valid engine created conducts).1

/-- The result is that of the first stage that fails, or else the solution. What the thrown errors
call a failure is just what the solution itself does not call optimal. -/
theorem result_eq_iff_yields (s : Solver) (k : Catalog) (p : Problem) :
    (∀ r, (s.solve k p).result = r ↔ s.Yields k p r) ∧
    ∀ solution : Solution, solution.isOptimal = true ↔ solution.code = 0 := by
  refine ⟨?_, Solution.isOptimal_iff⟩
  intro r
  constructor
  · rintro rfl
    exact yields_result s k p
  · exact Yields.result_eq

end LinProg.Solver
