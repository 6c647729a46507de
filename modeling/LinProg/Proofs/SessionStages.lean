import LinProg.Proofs.CallOrder

/-!
# The stages of a session

The run of a session with a model, cut into the runs of its four stages: building the problem, the
first hook, solving with the questions for the result, and the second hook. Each stage begins with
the model that the one before has left. A refusal ends the session with the building
(`run_session_of_refused`), and a first hook that does not end well ends it there
(`run_session_of_before_failed`); otherwise all stages are run (`run_session_of_built`).
-/

namespace LinProg

theorem Dialogue.run_bind_eq {α β : Type} {e : Engine} {d : Dialogue α} {f : α → Dialogue β}
    {m m' m'' : e.Model} {a : α} {b : β} {xs ys : List Exchange} (hd : d.run e m = ⟨a, m', xs⟩)
    (hf : (f a).run e m' = ⟨b, m'', ys⟩) : (d.bind f).run e m = ⟨b, m'', xs ++ ys⟩ := by
  rw [run_bind, hd]
  dsimp only
  rw [hf]

theorem Accepts.accepted {cs : List Call} {xs : List Exchange} (h : Accepts cs xs) :
    ∀ x ∈ xs, x.call.accepted x.reply = true := by
  induction h with
  | nil => simp
  | cons accepted rest ih => exact List.forall_mem_cons.2 ⟨accepted, ih⟩

theorem Refuses.exists_refused {cs : List Call} {xs : List Exchange} {c : Call}
    (h : Refuses cs xs c) : ∃ x ∈ xs, x.call.accepted x.reply = false := by
  induction h with
  | here refused => exact ⟨_, List.mem_cons_self, refused⟩
  | later accepted rest ih =>
    obtain ⟨x, hx, refused⟩ := ih
    exact ⟨x, List.mem_cons_of_mem _ hx, refused⟩

namespace Solver

section Stages

variable (s : Solver) (p : Problem) (e : Engine) (m : e.Model)

def building : Dialogue.Run e.Model (Option Call) :=
  (build (s.instructions p)).run e m

def beforeRun : Dialogue.Run e.Model (List Observation × HookEnd) :=
  (runHook (s.beforeSolve.map (· p))).run e (s.building p e m).model

def solving : Dialogue.Run e.Model Solution :=
  extract.run e (s.beforeRun p e m).model

/-- The second hook is given the solution that the questions have led to. -/
def afterRun : Dialogue.Run e.Model (List Observation × HookEnd) :=
  (runHook (s.afterSolve.map (· p (s.solving p e m).value))).run e (s.solving p e m).model

/-- The exchanges of all four stages. -/
def stageExchanges : List Exchange :=
  (s.building p e m).exchanges ++ (s.beforeRun p e m).exchanges ++
    (s.solving p e m).exchanges ++ (s.afterRun p e m).exchanges

end Stages

variable {s : Solver} {k : Catalog} {p : Problem} {e : Engine} {m : e.Model}

theorem Extraction.accepted {xs : List Exchange} {solution : Solution}
    (h : Extraction xs solution) : ∀ x ∈ xs, x.call.accepted x.reply = true := by
  obtain ⟨⟩ := h
  simp [Call.accepted]

theorem run_build_eq {stop : Option Call} (h : (s.building p e m).value = stop) :
    (build (s.instructions p)).run e m =
      ⟨stop, (s.building p e m).model, (s.building p e m).exchanges⟩ := by
  rw [← h]
  rfl

theorem conducts_building : e.Conducts m (s.building p e m).exchanges (s.building p e m).model :=
  Dialogue.conducts_run ..

theorem accepts_building (h : (s.building p e m).value = none) :
    Accepts (s.instructions p) (s.building p e m).exchanges := by
  have hpath := Dialogue.path_run e (build (s.instructions p)) m
  rw [run_build_eq h] at hpath
  exact path_build_none_iff.1 hpath

theorem refuses_building {c : Call} (h : (s.building p e m).value = some c) :
    Refuses (s.instructions p) (s.building p e m).exchanges c := by
  have hpath := Dialogue.path_run e (build (s.instructions p)) m
  rw [run_build_eq h] at hpath
  exact path_build_some_iff.1 hpath

theorem extraction_solving :
    Extraction (s.solving p e m).exchanges (s.solving p e m).value :=
  path_extract_iff.1 (Dialogue.path_run ..)

theorem run_session_of_refused {c : Call} (h : (s.building p e m).value = some c) :
    (s.session p).run e m =
      ⟨⟨.error (.error (.engineRejected c.name)), [], []⟩, (s.building p e m).model,
        (s.building p e m).exchanges⟩ := by
  rw [← List.append_nil (s.building p e m).exchanges]
  exact Dialogue.run_bind_eq (run_build_eq h) rfl

theorem run_session_of_before_failed {f : Failure} (built : (s.building p e m).value = none)
    (failed : (s.beforeRun p e m).value.2.failure? "before_solve" = some f) :
    (s.session p).run e m =
      ⟨⟨.error f, (s.beforeRun p e m).value.1, []⟩, (s.beforeRun p e m).model,
        (s.building p e m).exchanges ++ (s.beforeRun p e m).exchanges⟩ := by
  refine Dialogue.run_bind_eq (run_build_eq built) ?_
  rw [← List.append_nil (s.beforeRun p e m).exchanges]
  refine Dialogue.run_bind_eq (a := (s.beforeRun p e m).value) rfl ?_
  dsimp only
  rw [failed]
  rfl

/-- Solving the model and running the second hook, behind a first hook that has ended well. -/
theorem run_conclude (before : List Observation) :
    (s.conclude p before).run e (s.beforeRun p e m).model =
      ⟨⟨match (s.afterRun p e m).value.2.failure? "after_solve" with
          | some f => .error f
          | none => .ok (s.solving p e m).value,
          before, (s.afterRun p e m).value.1⟩,
        (s.afterRun p e m).model, (s.solving p e m).exchanges ++ (s.afterRun p e m).exchanges⟩ := by
  refine Dialogue.run_bind_eq (a := (s.solving p e m).value) rfl ?_
  rw [← List.append_nil (s.afterRun p e m).exchanges]
  refine Dialogue.run_bind_eq (a := (s.afterRun p e m).value) rfl ?_
  dsimp only
  cases (s.afterRun p e m).value.2.failure? "after_solve" <;> rfl

theorem run_session_of_built (built : (s.building p e m).value = none)
    (ended : (s.beforeRun p e m).value.2 = .ok) :
    (s.session p).run e m =
      ⟨⟨match (s.afterRun p e m).value.2.failure? "after_solve" with
          | some f => .error f
          | none => .ok (s.solving p e m).value,
          (s.beforeRun p e m).value.1, (s.afterRun p e m).value.1⟩,
        (s.afterRun p e m).model, s.stageExchanges p e m⟩ := by
  rw [stageExchanges, List.append_assoc, List.append_assoc]
  refine Dialogue.run_bind_eq (run_build_eq built) ?_
  refine Dialogue.run_bind_eq (a := (s.beforeRun p e m).value) rfl ?_
  dsimp only
  rw [ended]
  exact run_conclude _

/-- The first stage that does not go well decides the result. -/
theorem result_session (s : Solver) (p : Problem) (e : Engine) (m : e.Model) :
    ((s.session p).run e m).value.result =
      match (s.building p e m).value, (s.beforeRun p e m).value.2.failure? "before_solve",
        (s.afterRun p e m).value.2.failure? "after_solve" with
      | some c, _, _ => .error (.error (.engineRejected c.name))
      | none, some f, _ => .error f
      | none, none, some f => .error f
      | none, none, none => .ok (s.solving p e m).value := by
  cases built : (s.building p e m).value with
  | some c => rw [run_session_of_refused built]
  | none =>
    cases failed : (s.beforeRun p e m).value.2.failure? "before_solve" with
    | some f => rw [run_session_of_before_failed built failed]
    | none =>
      rw [run_session_of_built built (failure?_eq_none_iff.1 failed)]
      cases (s.afterRun p e m).value.2.failure? "after_solve" <;> rfl

def withoutHooks (s : Solver) : Solver :=
  { s with beforeSolve := none, afterSolve := none }

theorem run_session_withoutHooks (built : (s.withoutHooks.building p e m).value = none) :
    (s.withoutHooks.session p).run e m =
      ⟨⟨.ok (s.withoutHooks.solving p e m).value, [], []⟩, (s.withoutHooks.solving p e m).model,
        (s.withoutHooks.building p e m).exchanges ++
          (s.withoutHooks.solving p e m).exchanges⟩ := by
  have hbefore : (s.withoutHooks.beforeRun p e m).exchanges = [] := rfl
  have hafter : (s.withoutHooks.afterRun p e m).exchanges = [] := rfl
  rw [run_session_of_built built rfl, stageExchanges, hbefore, hafter, List.append_nil,
    List.append_nil]
  rfl

/-- The calls that solve a model and ask for its result. -/
def extractionCalls (code : Int) : List Call :=
  [.solve, .objective, .solutionCount, .values, .status, .statusText code, .iterations]

theorem Extraction.calls_eq {xs : List Exchange} {solution : Solution}
    (h : Extraction xs solution) : xs.map Exchange.call = extractionCalls solution.code := by
  obtain ⟨⟩ := h
  rfl

theorem exchanges_solve_withoutHooks {e : Engine} {m : e.Model} (valid : p.defect? = none)
    (engine : s.engine k = .ok e) (created : e.create 0 p.columns = some m) :
    (s.withoutHooks.solve k p).exchanges =
      ((s.withoutHooks.session p).run e m).exchanges ++ [⟨.release, ()⟩] := by
  have engine' : s.withoutHooks.engine k = .ok e := engine
  rw [solve_of_created valid engine' created]

/-- The calls of a session without hooks, if none is refused. -/
theorem calls_session_of_built (built : (s.withoutHooks.building p e m).value = none) :
    ∃ code, ((s.withoutHooks.session p).run e m).exchanges.map Exchange.call =
      s.instructions p ++ extractionCalls code := by
  refine ⟨(s.withoutHooks.solving p e m).value.code, ?_⟩
  rw [run_session_withoutHooks built, List.map_append, (accepts_building built).calls_eq,
    extraction_solving.calls_eq]
  rfl

theorem built_of_accepted
    (h : ∀ x ∈ ((s.withoutHooks.session p).run e m).exchanges, x.call.accepted x.reply = true) :
    (s.withoutHooks.building p e m).value = none := by
  cases hv : (s.withoutHooks.building p e m).value with
  | none => rfl
  | some c =>
    rw [run_session_of_refused hv] at h
    obtain ⟨x, hx, refused⟩ := (refuses_building hv).exists_refused
    rw [h x hx] at refused
    cases refused

/-- Without hooks nothing is refused in a session whose building is not. -/
theorem accepted_session_withoutHooks (built : (s.withoutHooks.building p e m).value = none) :
    ∀ x ∈ ((s.withoutHooks.session p).run e m).exchanges, x.call.accepted x.reply = true := by
  rw [run_session_withoutHooks built, List.forall_mem_append]
  exact ⟨(accepts_building built).accepted, extraction_solving.accepted⟩

end Solver

end LinProg
