import LinProg.Proofs.BufferedRun
import LinProg.Proofs.CallOrder

/-!
# The model that a problem stands for

`Solver.reference` says, column by column and row by row, which model a solver means by a problem.
The calls of the plan build just this model in a buffered engine (`builds_plan`), whatever the
order in which bounds and marks come about, and so it is the only state that the backend is given.
-/

namespace LinProg

theorem Duration.below_second_iff (d : Duration) :
    (d.seconds = 0 ∧ d.nanos ≠ 0) ↔ 0 < d.totalNanos ∧ d.totalNanos < 10 ^ 9 := by
  have hd := d.nanos_lt
  have hzero : d.seconds = 0 ↔ d.seconds.toNat = 0 := by
    rw [← UInt64.toNat_inj, UInt64.toNat_zero]
  rw [hzero, totalNanos]
  omega

namespace Problem

/-- A variable without bounds of its own is not negative. -/
def lowerBound (p : Problem) (i : Nat) : Float :=
  if p.binary.designates i then Double.zero else p.lower.getD i Double.zero

def upperBound (p : Problem) (i : Nat) : Float :=
  if p.binary.designates i then Double.signedOne false else p.upper.getD i Double.posInf

end Problem

/-- The solution that is read from a model with this outcome. -/
def Outcome.solution (o : Outcome) : Solution :=
  ⟨o.objective, o.count, o.values, o.status, statusText o.status, o.iterations⟩

namespace Solver

/-- The time limit in whole seconds; a positive limit below one second counts as one. -/
def secondsLimit (s : Solver) : UInt64 :=
  match s.timeout with
  | none => 0
  | some d => if 0 < d.totalNanos ∧ d.totalNanos < 10 ^ 9 then 1 else d.seconds

def reference (s : Solver) (p : Problem) : ModelState where
  columns := p.columns
  objective := p.objective
  maximize := match s.direction with
    | .minimize => false
    | .maximize => true
  rows := p.constraints.map fun c => ⟨c.coefficients, c.comparison, c.value⟩
  lower := (List.range p.columns).map p.lowerBound
  upper := (List.range p.columns).map p.upperBound
  integer := (List.range p.columns).map fun i => p.integer.designates i || p.binary.designates i
  binary := (List.range p.columns).map p.binary.designates
  scaling := s.scaling
  verbosity := s.verbosity.level
  timeout := s.secondsLimit
  outcome := none

variable {s : Solver} {k : Catalog} {p : Problem} {b : Backend}

theorem engineSeconds_eq (s : Solver) : s.engineSeconds = s.secondsLimit := by
  unfold engineSeconds secondsLimit
  cases s.timeout with
  | none => rfl
  | some d =>
    rw [Option.map_some, Option.getD_some, Duration.engineSeconds]
    exact ite_congr (propext d.below_second_iff) (fun _ => rfl) fun _ => rfl

/-- The settings and the objective, on a fresh model. -/
theorem builds_settings (s : Solver) (p : Problem) :
    ModelState.Builds b (.new p.columns)
      [.setScaling s.scaling, .setVerbosity s.verbosity.level, .setTimeout s.engineSeconds,
        .setObjective p.objective, .setDirection s.direction]
      { ModelState.new p.columns with
        scaling := s.scaling
        verbosity := s.verbosity.level
        timeout := s.secondsLimit
        objective := p.objective
        maximize := s.direction == .maximize } := by
  rw [engineSeconds_eq]
  refine .cons rfl (.cons rfl (.cons rfl ?_))
  exact (ModelState.builds_setObjective rfl).append (.cons rfl .nil)

theorem length_ite_bounds {bounds : List Float} {n : Nat} {d : Float}
    (h : bounds = [] ∨ bounds.length = n) :
    (if bounds = [] then List.replicate n d else bounds).length = n := by
  split
  · exact List.length_replicate
  · exact h.resolve_left ‹_›

theorem getD_ite_bounds {bounds : List Float} {n i : Nat} {d : Float} (hi : i < n) :
    (if bounds = [] then List.replicate n d else bounds).getD i d = bounds.getD i d := by
  split
  next h => simp [h, List.getD_eq_getElem?_getD, hi]
  next => rfl

theorem setAll_bounds {bounds : List Float} {n : Nat} {v d : Float} (P : Nat → Bool)
    (h : bounds = [] ∨ bounds.length = n) :
    setAll v (if bounds = [] then List.replicate n d else bounds) ((List.range n).filter P) =
      (List.range n).map fun i => if P i then v else bounds.getD i d := by
  rw [setAll_filter_range (length_ite_bounds h) P d]
  apply List.map_congr_left
  intro i hi
  rw [getD_ite_bounds (List.mem_range.1 hi)]

theorem setAll_flags {n : Nat} (P : Nat → Bool) :
    setAll true (List.replicate n false) ((List.range n).filter P) = (List.range n).map P := by
  rw [setAll_filter_range List.length_replicate P false]
  apply List.map_congr_left
  intro i hi
  cases hP : P i <;> simp [List.getD_eq_getElem?_getD, List.mem_range.1 hi]

theorem setAll_more_flags {n : Nat} (P Q : Nat → Bool) :
    setAll true ((List.range n).map P) ((List.range n).filter Q) =
      (List.range n).map fun i => P i || Q i := by
  rw [setAll_filter_range (by simp) Q false]
  apply List.map_congr_left
  intro i hi
  cases hQ : Q i <;> simp [List.getD_eq_getElem?_getD, List.mem_range.1 hi]

theorem builds_plan (hc : p.Consistent) :
    ModelState.Builds b (.new p.columns) (s.plan p) (s.reference p) := by
  have marked : ∀ d : Designation, ∀ i ∈ (List.range p.columns).filter d.designates,
      i < p.columns := by
    intro d i hi
    exact List.mem_range.1 (List.mem_filter.1 hi).1
  have settings := builds_settings (b := b) s p
  have rows := settings.append (ModelState.builds_rows hc.constraints)
  have lower := rows.append (ModelState.builds_setBounds .lower hc.lower)
  have upper := lower.append (ModelState.builds_setBounds .upper hc.upper)
  have integers := upper.append (ModelState.builds_integers (marked p.integer))
  have binaries := integers.append (ModelState.builds_binaries (marked p.binary))
  have hdirection : (s.direction == .maximize) = (s.reference p).maximize := by
    unfold reference
    cases s.direction <;> rfl
  simp only [ModelState.new, BoundSide.call, BoundSide.bounds, BoundSide.withBounds,
    List.nil_append, setAll_bounds _ hc.lower, setAll_bounds _ hc.upper,
    setAll_flags, setAll_more_flags, hdirection] at binaries
  exact binaries

theorem ne_solve_of_mem_plan {c : Call} (h : c ∈ s.plan p) : c ≠ .solve := by
  rintro rfl
  simp [plan] at h

/-- The questions after the solve, as a buffered model answers them. -/
def outcomeExchanges (o : Outcome) : List Exchange :=
  [⟨.solve, o.status⟩, ⟨.objective, o.objective⟩, ⟨.solutionCount, o.count⟩,
    ⟨.values, some o.values⟩, ⟨.status, o.status⟩, ⟨.statusText o.status, statusText o.status⟩,
    ⟨.iterations, o.iterations⟩]

theorem extraction_outcomeExchanges (o : Outcome) : Extraction (outcomeExchanges o) o.solution :=
  .intro o.status o.objective o.count (some o.values) o.status (statusText o.status) o.iterations

theorem conducts_outcomeExchanges (t : ModelState) :
    (Engine.buffered b).Conducts t (outcomeExchanges (b.solve t))
      { t with outcome := some (b.solve t) } :=
  ⟨rfl, rfl, rfl, rfl, rfl, rfl, rfl, rfl⟩

/-- The reference model is built, handed to the backend once, and dropped with its outcome. -/
theorem solve_reference (engine : s.engine k = .ok (.buffered b)) (valid : p.defect? = none)
    (noBefore : s.beforeSolve = none) (noAfter : s.afterSolve = none) :
    let o := b.solve (s.reference p)
    (s.solve k p).created = some (0, p.columns) ∧
    (Engine.buffered b).Conducts (.new p.columns) (s.solve k p).exchanges (.new 0) ∧
    b.inputs (.new p.columns) ((s.solve k p).exchanges.map Exchange.call) = [s.reference p] ∧
    (s.reference p).rows.map (fun row => row.comparison.code) =
      p.constraints.map (fun c => match c.comparison with
        | .lessOrEqual => 1
        | .greaterOrEqual => 2
        | .equal => 3) ∧
    (s.solve k p).result =
      s.judge ⟨o.objective, o.count, o.values, o.status, statusText o.status, o.iterations⟩ := by
  intro o
  have consistent := Problem.defect?_eq_none_iff.1 valid
  obtain ⟨built, accepted, conducts⟩ := builds_plan (s := s) (b := b) consistent
  have prepared : s.Prepared p (built ++ []) .ok :=
    .intro accepted (by rw [noBefore]; exact ⟨rfl, rfl⟩)
  have completed : s.Completed p (built ++ [] ++ outcomeExchanges o ++ []) _ .ok :=
    .intro prepared (extraction_outcomeExchanges o) (by rw [noAfter]; exact ⟨rfl, rfl⟩)
  rw [List.append_nil, List.append_nil] at completed
  have whole := Engine.conducts_append.2 ⟨_, conducts, conducts_outcomeExchanges (s.reference p)⟩
  obtain ⟨result, created, exchanges⟩ :=
    (Course.of_judge completed).solve_eq valid engine rfl whole
  refine ⟨created, ?_, ?_, ?_, result⟩
  · rw [exchanges]
    exact Engine.conducts_append.2 ⟨_, whole, rfl, rfl⟩
  · rw [exchanges, List.append_assoc, List.map_append, accepted.calls_eq,
      Backend.inputs_append_of_builds (builds_plan consistent) fun c hc => ne_solve_of_mem_plan hc]
    rfl
  · rw [reference, List.map_map]
    apply List.map_congr_left
    intro c hc
    rw [Function.comp_apply]
    cases c.comparison <;> rfl

def echoSolver : Solver :=
  ((Solver.ofDirection .maximize).withTimeout ⟨0, 500000000, by decide⟩).withEngine
    (.buffered (.echo 0))

/-- Three variables, the second binary against its bounds, the third an integer. -/
def mixedProblem : Problem where
  objective := [Double.zero, Double.signedOne false, Double.signedOne true]
  constraints :=
    [⟨[Double.zero, Double.zero, Double.signedOne false], .equal, Double.zero⟩,
      ⟨[Double.signedOne true, Double.zero, Double.zero], .lessOrEqual, Double.posInf⟩]
  lower := [Double.signedOne true, Double.signedOne true, Double.zero]
  integer := .perVariable [false, false, true]
  binary := .perVariable [false, true]

theorem echoSolver_solve_reference :
    echoSolver.engine .standard = .ok (.buffered (.echo 0)) ∧ mixedProblem.defect? = none ∧
    echoSolver.beforeSolve = none ∧ echoSolver.afterSolve = none ∧
    (Backend.echo 0).inputs (.new 3)
      ((echoSolver.solve .standard mixedProblem).exchanges.map Exchange.call) =
        [echoSolver.reference mixedProblem] ∧
    (echoSolver.reference mixedProblem).rows.map (fun row => row.comparison.code) = [3, 1] ∧
    (echoSolver.reference mixedProblem).lower =
      [Double.signedOne true, Double.zero, Double.zero] ∧
    (echoSolver.reference mixedProblem).upper =
      [Double.posInf, Double.signedOne false, Double.posInf] ∧
    (echoSolver.reference mixedProblem).integer = [false, true, true] ∧
    (echoSolver.reference mixedProblem).binary = [false, true, false] ∧
    (echoSolver.reference mixedProblem).timeout = 1 := by
  have h := solve_reference (s := echoSolver) (k := .standard) (p := mixedProblem) (b := .echo 0)
    rfl rfl rfl rfl
  obtain ⟨-, -, inputs, codes, -⟩ := h
  exact ⟨rfl, rfl, rfl, rfl, inputs, codes, rfl, rfl, rfl, rfl, by decide⟩

end Solver

end LinProg
