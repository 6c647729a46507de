import LinProg.HookScript
import LinProg.Proofs.ModelInvariant
import LinProg.Proofs.ReferenceModel
import LinProg.Proofs.SessionStages

/-!
# What hooks can and cannot do

A hook may make any calls that are open to it, but none of them touches the problem in the model:
its columns, objective, direction and rows, and the outcome of its solve, stay (`Frame`), and the
model stays well-formed. So the backend is given the problem that was built, under settings, bounds
and marks that the first hook may have changed; its outcome for this model is the solution
(`result_solve_of_ended`), and nothing that the second hook does has a part in the result.
-/

namespace LinProg

theorem Call.OpenToHooks.ne_solve {c : Call} (h : c.OpenToHooks) : c ≠ .solve := by
  rintro rfl
  cases h

namespace ModelState

/-- The second model has all of the first that hooks cannot change. -/
structure Frame (t u : ModelState) : Prop where
  columns : u.columns = t.columns
  objective : u.objective = t.objective
  maximize : u.maximize = t.maximize
  rows : u.rows = t.rows
  outcome : u.outcome = t.outcome

variable {b : Backend} {t u v : ModelState} {c : Call} {e : ModelEdit} {xs : List Exchange}

theorem Frame.refl (t : ModelState) : t.Frame t := ⟨rfl, rfl, rfl, rfl, rfl⟩

theorem Frame.trans (h : t.Frame u) (h' : u.Frame v) : t.Frame v where
  columns := h'.columns.trans h.columns
  objective := h'.objective.trans h.objective
  maximize := h'.maximize.trans h.maximize
  rows := h'.rows.trans h.rows
  outcome := h'.outcome.trans h.outcome

theorem frame_edit (h : ∀ u, t.edit? e = some u → t.Frame u) : t.Frame (t.edit e).2 := by
  unfold edit
  split
  next u he => exact h u he
  next => exact .refl t

/-- A change of one column is within the frame if it is for each position. -/
theorem frame_edit_of_index? {column : Nat} {f : Nat → ModelState}
    (h : t.edit? e = (t.index? column).map f) (hf : ∀ i, t.Frame (f i)) :
    t.Frame (t.edit e).2 := by
  apply frame_edit
  intro u hu
  obtain ⟨i, -, -, rfl⟩ := map_index?_eq_some_iff.1 (h.symm.trans hu)
  exact hf i

theorem frame_answer (b : Backend) (t : ModelState) (h : c.OpenToHooks) :
    t.Frame (t.answer b c).2 := by
  cases c with
  | setScaling | setVerbosity | setTimeout => exact ⟨rfl, rfl, rfl, rfl, rfl⟩
  | setLowerBound | setUpperBound | setInteger | setBinary =>
    exact frame_edit_of_index? rfl fun i => ⟨rfl, rfl, rfl, rfl, rfl⟩
  -- These calls change the problem, or read the outcome, and are not open.
  | setObjective | setDirection | addRow | setLowerBounds | setUpperBounds | solve | objective
  | solutionCount | values | statusText | release => cases h
  | _ => exact .refl t

theorem WellFormed.answer (h : t.WellFormed) (b : Backend) (c : Call) :
    (t.answer b c).2.WellFormed := by
  obtain hsame | ⟨e, hedit, -⟩ := answer_eq_or_edit b t c
  · rwa [hsame]
  · rw [hedit]
    exact h.edit e

theorem frame_of_conducts (hc : (Engine.buffered b).Conducts t xs u)
    (hx : ∀ x ∈ xs, x.call.OpenToHooks) : t.Frame u :=
  hc.invariant (P := t.Frame) (.refl t) fun x hmem v h => h.trans (frame_answer b v (hx x hmem))

theorem WellFormed.of_conducts (h : t.WellFormed) (hc : (Engine.buffered b).Conducts t xs u) :
    u.WellFormed :=
  hc.invariant (P := ModelState.WellFormed) h fun x _ _ h => h.answer b x.call

/-- What the model tells of the outcome stays the same within a frame. -/
theorem Frame.told (h : t.Frame u) :
    (u.answer b .status).1 = (t.answer b .status).1 ∧
      (u.answer b .iterations).1 = (t.answer b .iterations).1 := by
  simp only [answer, status, h.outcome, and_self]

end ModelState

namespace Solver

section AnyEngine

variable {s : Solver} {p : Problem} {e : Engine} {m : e.Model}

def withoutBefore (s : Solver) : Solver := { s with beforeSolve := none }

def withoutAfter (s : Solver) : Solver := { s with afterSolve := none }

theorem open_beforeRun : ∀ x ∈ (s.beforeRun p e m).exchanges, x.call.OpenToHooks :=
  (hookRun_of_path (Dialogue.path_run ..)).isOpen

theorem open_afterRun : ∀ x ∈ (s.afterRun p e m).exchanges, x.call.OpenToHooks :=
  (hookRun_of_path (Dialogue.path_run ..)).isOpen

theorem conducts_beforeRun :
    e.Conducts (s.building p e m).model (s.beforeRun p e m).exchanges (s.beforeRun p e m).model :=
  Dialogue.conducts_run ..

theorem conducts_afterRun :
    e.Conducts (s.solving p e m).model (s.afterRun p e m).exchanges (s.afterRun p e m).model :=
  Dialogue.conducts_run ..

theorem conducts_prepared :
    e.Conducts m ((s.building p e m).exchanges ++ (s.beforeRun p e m).exchanges)
      (s.beforeRun p e m).model :=
  Engine.conducts_append.2 ⟨_, conducts_building, conducts_beforeRun⟩

theorem stageExchanges_append (xs : List Exchange) :
    s.stageExchanges p e m ++ xs =
      ((s.building p e m).exchanges ++ (s.beforeRun p e m).exchanges) ++
        ((s.solving p e m).exchanges ++ ((s.afterRun p e m).exchanges ++ xs)) := by
  rw [stageExchanges, List.append_assoc, List.append_assoc]

/-- The result is made before the second hook, which can only put an error in its place. -/
theorem result_session_withoutAfter
    (h : (s.beforeRun p e m).value.2 = .ok → (s.afterRun p e m).value.2 = .ok) :
    ((s.session p).run e m).value.result =
      ((s.withoutAfter.session p).run e m).value.result := by
  -- Both sessions run through the same stages up to the second hook.
  have building : (s.withoutAfter.building p e m).value = (s.building p e m).value := rfl
  have before : (s.withoutAfter.beforeRun p e m).value = (s.beforeRun p e m).value := rfl
  have after : (s.withoutAfter.afterRun p e m).value.2 = .ok := rfl
  have solving : (s.withoutAfter.solving p e m).value = (s.solving p e m).value := rfl
  rw [result_session, result_session, building, before, after, solving]
  cases (s.building p e m).value with
  | some c => rfl
  | none =>
    cases hf : (s.beforeRun p e m).value.2.failure? "before_solve" with
    | some f => rfl
    | none => rw [h (failure?_eq_none_iff.1 hf)]

theorem eq_of_result_session {solution : Solution}
    (h : ((s.session p).run e m).value.result = .ok solution) :
    solution = (s.solving p e m).value := by
  rw [result_session] at h
  split at h
  next => cases h
  next => cases h
  next => cases h
  next => exact (Except.ok.inj h).symm

theorem judge_bind_eq_ok {r : Except Failure Solution} {solution : Solution}
    (h : r.bind s.judge = .ok solution) : r = .ok solution := by
  cases r with
  | error f => cases h
  | ok a =>
    have hjudge : s.judge a = .ok solution := h
    unfold judge at hjudge
    split at hjudge
    next => cases hjudge
    next => exact hjudge

end AnyEngine

variable {s : Solver} {k : Catalog} {p : Problem} {b : Backend}

/-- The model of a consistent problem, as the first hook gets it. -/
theorem building_buffered (s : Solver) (b : Backend) (hc : p.Consistent) :
    ∃ xs, Accepts (s.plan p) xs ∧
      s.building p (.buffered b) (.new p.columns) = ⟨none, s.reference p, xs⟩ := by
  obtain ⟨xs, accepted, conducts⟩ := builds_plan (s := s) (b := b) hc
  refine ⟨xs, accepted, ?_⟩
  rw [← instructions_eq_plan s hc] at accepted
  exact Dialogue.run_eq_iff.2 ⟨path_build_none_iff.2 accepted, conducts⟩

theorem value_building_buffered (s : Solver) (b : Backend) (hc : p.Consistent) :
    (s.building p (.buffered b) (.new p.columns)).value = none := by
  obtain ⟨xs, -, hrun⟩ := building_buffered s b hc
  exact congrArg Dialogue.Run.value hrun

theorem model_building_buffered (s : Solver) (b : Backend) (hc : p.Consistent) :
    (s.building p (.buffered b) (.new p.columns)).model = s.reference p := by
  obtain ⟨xs, -, hrun⟩ := building_buffered s b hc
  exact congrArg Dialogue.Run.model hrun

theorem ne_solve_building (s : Solver) (b : Backend) (hc : p.Consistent) :
    ∀ x ∈ (s.building p (.buffered b) (.new p.columns)).exchanges, x.call ≠ .solve := by
  obtain ⟨xs, accepted, hrun⟩ := building_buffered s b hc
  rw [congrArg Dialogue.Run.exchanges hrun]
  intro x hx
  apply ne_solve_of_mem_plan (s := s) (p := p)
  rw [← accepted.calls_eq]
  exact List.mem_map_of_mem hx

/-- The questions are answered from the outcome that the backend has for the model. -/
theorem exchanges_solving (s : Solver) (p : Problem) (b : Backend) (t : ModelState) :
    (s.solving p (.buffered b) t).exchanges =
      outcomeExchanges (b.solve (s.beforeRun p (.buffered b) t).model) :=
  rfl

theorem value_solving (s : Solver) (p : Problem) (b : Backend) (t : ModelState) :
    (s.solving p (.buffered b) t).value =
      (b.solve (s.beforeRun p (.buffered b) t).model).solution :=
  rfl

/-- The solution says what the solved model tells of its outcome. -/
theorem told_solving (s : Solver) (p : Problem) (b : Backend) (t : ModelState) :
    (ModelState.answer b (s.solving p (.buffered b) t).model .status).1 =
        (s.solving p (.buffered b) t).value.code ∧
      (ModelState.answer b (s.solving p (.buffered b) t).model .iterations).1 =
        (s.solving p (.buffered b) t).value.iterations :=
  ⟨rfl, rfl⟩

/-- The backend is asked first, and by none of the questions again. -/
theorem inputs_outcomeExchanges {t : ModelState} {o : Outcome} {xs : List Exchange}
    (hx : ∀ x ∈ xs, x.call ≠ .solve) :
    b.inputs t ((outcomeExchanges o ++ xs).map Exchange.call) = [t] := by
  refine congrArg (t :: ·) (Backend.inputs_eq_nil ?_)
  simpa using hx

/-- The first hook gets the reference model, and it can leave its frame no more than any hook. -/
theorem frame_beforeRun (s : Solver) (b : Backend) (hc : p.Consistent) :
    (s.reference p).Frame (s.beforeRun p (.buffered b) (.new p.columns)).model := by
  rw [← model_building_buffered s b hc]
  exact ModelState.frame_of_conducts conducts_beforeRun open_beforeRun

theorem wellFormed_beforeRun (s : Solver) (p : Problem) (b : Backend) (n : Nat) :
    ModelState.WellFormed (s.beforeRun p (.buffered b) (.new n)).model :=
  (ModelState.wellFormed_new n).of_conducts conducts_prepared

section Valid

variable (engine : s.engine k = .ok (.buffered b)) (valid : p.defect? = none)

include engine valid

theorem result_solve_buffered :
    (s.solve k p).result =
      ((s.session p).run (.buffered b) (.new p.columns)).value.result.bind s.judge :=
  congrArg (·.result) (solve_of_created valid engine rfl)

theorem exchanges_solve_buffered
    (ended : (s.beforeRun p (.buffered b) (.new p.columns)).value.2 = .ok) :
    (s.solve k p).exchanges =
      s.stageExchanges p (.buffered b) (.new p.columns) ++ [⟨.release, ()⟩] := by
  have built := value_building_buffered s b (Problem.defect?_eq_none_iff.1 valid)
  rw [solve_of_created valid engine rfl, run_session_of_built built ended]

/-- The backend is given the model that the first hook leaves, and no other. -/
theorem inputs_solve_buffered
    (ended : (s.beforeRun p (.buffered b) (.new p.columns)).value.2 = .ok) :
    b.inputs (.new p.columns) ((s.solve k p).exchanges.map Exchange.call) =
      [(s.beforeRun p (.buffered b) (.new p.columns)).model] := by
  have hc := Problem.defect?_eq_none_iff.1 valid
  have hlog := (exchanges_solve_buffered engine valid ended).trans (stageExchanges_append _)
  rw [hlog, List.map_append]
  -- Neither the building nor a hook asks the backend, so only the solve between them does.
  refine (Backend.inputs_append conducts_prepared ?_).trans ?_
  · rw [List.forall_mem_append]
    exact ⟨ne_solve_building s b hc, fun x hx => (open_beforeRun x hx).ne_solve⟩
  · rw [exchanges_solving]
    apply inputs_outcomeExchanges
    rw [List.forall_mem_append]
    exact ⟨fun x hx => (open_afterRun x hx).ne_solve, by simp⟩

/-- A solve whose hooks end well comes to the outcome that the backend has for the model of the
first hook. -/
theorem result_solve_of_ended
    (before : (s.beforeRun p (.buffered b) (.new p.columns)).value.2 = .ok)
    (after : (s.afterRun p (.buffered b) (.new p.columns)).value.2 = .ok) :
    (s.solve k p).result =
      s.judge (b.solve (s.beforeRun p (.buffered b) (.new p.columns)).model).solution := by
  have built := value_building_buffered s b (Problem.defect?_eq_none_iff.1 valid)
  rw [result_solve_buffered engine valid, run_session_of_built built before, after, value_solving]
  rfl

end Valid

/-- Within the second hook the model tells of the outcome what the solution says. -/
theorem told_in_afterRun {xs ys : List Exchange} {t u : ModelState}
    (hxs : (s.afterRun p (.buffered b) u).exchanges = xs ++ ys)
    (conducts : (Engine.buffered b).Conducts (s.solving p (.buffered b) u).model xs t) :
    (t.answer b .status).1 = (s.solving p (.buffered b) u).value.code ∧
      (t.answer b .iterations).1 = (s.solving p (.buffered b) u).value.iterations := by
  have hopen : ∀ x ∈ xs, x.call.OpenToHooks := by
    intro x hx
    exact open_afterRun x (hxs ▸ List.mem_append_left ys hx)
  obtain ⟨status, iterations⟩ := (ModelState.frame_of_conducts conducts hopen).told (b := b)
  obtain ⟨code, count⟩ := told_solving s p b u
  exact ⟨status.trans code, iterations.trans count⟩

/-- Whatever the first hook does, the backend is given the problem as it was built, in a well-formed
model, and its outcome for this model is the solution; the second hook cannot change the result, and
it reads of the outcome what the solution says. -/
theorem hook_effects (engine : s.engine k = .ok (.buffered b)) (valid : p.defect? = none) :
    let before := s.beforeRun p (.buffered b) (.new p.columns)
    let solved := s.solving p (.buffered b) (.new p.columns)
    let after := s.afterRun p (.buffered b) (.new p.columns)
    let received (s : Solver) :=
      b.inputs (.new p.columns) ((s.solve k p).exchanges.map Exchange.call)
    (before.value.2 = .ok →
      (s.solve k p).exchanges =
        s.stageExchanges p (.buffered b) (.new p.columns) ++ [⟨.release, ()⟩] ∧
      received s.withoutBefore = [s.reference p] ∧
      ∃ u, received s = [u] ∧ (s.reference p).Frame u ∧ u.columns = p.columns ∧
        u.outcome = none ∧ u.WellFormed ∧ (∀ c, u.isBinary c = true → u.isInteger c = true) ∧
        solved.value = (b.solve u).solution ∧
        (after.value.2 = .ok → (s.solve k p).result = s.judge (b.solve u).solution)) ∧
    ((before.value.2 = .ok → after.value.2 = .ok) →
      (s.solve k p).result = (s.withoutAfter.solve k p).result) ∧
    (∀ xs ys t, after.exchanges = xs ++ ys → (Engine.buffered b).Conducts solved.model xs t →
      (ModelState.answer b t .status).1 = solved.value.code ∧
      (ModelState.answer b t .iterations).1 = solved.value.iterations) ∧
    (∀ code, ⟨.status, code⟩ ∈ after.exchanges → code = solved.value.code) ∧
    (∀ count, ⟨.iterations, count⟩ ∈ after.exchanges → count = solved.value.iterations) ∧
    ∀ solution, (s.solve k p).result = .ok solution → solution = solved.value := by
  intro before solved after received
  have hc := Problem.defect?_eq_none_iff.1 valid
  refine ⟨?_, ?_, ?_, ?_, ?_, ?_⟩
  · intro ended
    have frame : (s.reference p).Frame before.model := frame_beforeRun s b hc
    have wellFormed : before.model.WellFormed := wellFormed_beforeRun s p b p.columns
    refine ⟨exchanges_solve_buffered engine valid ended, ?_, before.model,
      inputs_solve_buffered engine valid ended, frame, frame.columns, frame.outcome, wellFormed,
      fun c => wellFormed.isInteger_of_isBinary, value_solving .., ?_⟩
    · refine (inputs_solve_buffered (s := s.withoutBefore) engine valid rfl).trans ?_
      exact congrArg (fun t => [t]) (model_building_buffered s.withoutBefore b hc)
    · exact result_solve_of_ended engine valid ended
  · intro ended
    rw [result_solve_buffered engine valid,
      result_solve_buffered (s := s.withoutAfter) engine valid, result_session_withoutAfter ended]
    rfl
  · intro xs ys t hxs conducts
    exact told_in_afterRun hxs conducts
  · intro code hcode
    obtain ⟨xs, ys, hxs⟩ := List.append_of_mem hcode
    obtain ⟨t, hbefore, reply, -⟩ := Engine.conducts_append.1 (hxs ▸ conducts_afterRun)
    exact reply.trans (told_in_afterRun hxs hbefore).1
  · intro count hcount
    obtain ⟨xs, ys, hxs⟩ := List.append_of_mem hcount
    obtain ⟨t, hbefore, reply, -⟩ := Engine.conducts_append.1 (hxs ▸ conducts_afterRun)
    exact reply.trans (told_in_afterRun hxs hbefore).2
  · intro solution hresult
    rw [result_solve_buffered engine valid] at hresult
    exact eq_of_result_session (judge_bind_eq_ok hresult)

/-- The first hook asks for a bound, a mark and a column that is not there; the second hook changes
settings and asks for the status. -/
def hookedSolver : Solver :=
  (echoSolver.withBeforeSolve fun p => Hook.ofScript
    [.setUpperBound 3 (Double.signedOne false), .setInteger 1 true, .setBinary 9 true,
      .setTimeout 7] p none).withAfterSolve fun p solution => Hook.ofScript
    [.setTimeout 9, .setInteger 2 false, .model] p (some solution)

theorem hookedSolver_effects :
    hookedSolver.engine .standard = .ok (.buffered (.echo 0)) ∧ mixedProblem.defect? = none ∧
    (hookedSolver.beforeRun mixedProblem (.buffered (.echo 0)) (.new 3)).value.2 = .ok ∧
    (hookedSolver.afterRun mixedProblem (.buffered (.echo 0)) (.new 3)).value.2 = .ok ∧
    (Backend.echo 0).inputs (.new 3)
      ((hookedSolver.withoutBefore.solve .standard mixedProblem).exchanges.map Exchange.call) =
        [hookedSolver.reference mixedProblem] ∧
    (∃ u, (Backend.echo 0).inputs (.new 3)
        ((hookedSolver.solve .standard mixedProblem).exchanges.map Exchange.call) = [u] ∧
      (hookedSolver.reference mixedProblem).Frame u) ∧
    (hookedSolver.solve .standard mixedProblem).result =
      (hookedSolver.withoutAfter.solve .standard mixedProblem).result ∧
    (ModelState.answer (.echo 0)
      (hookedSolver.solving mixedProblem (.buffered (.echo 0)) (.new 3)).model .status).1 = 0 := by
  have h := hook_effects (s := hookedSolver) (k := .standard) (p := mixedProblem) (b := .echo 0)
    rfl rfl
  obtain ⟨first, second, told, -⟩ := h
  obtain ⟨-, received, u, hu, frame, -⟩ := first rfl
  exact ⟨rfl, rfl, rfl, rfl, received, ⟨u, hu, frame⟩, second fun _ => rfl,
    (told [] _ _ rfl rfl).1⟩

end Solver

end LinProg
