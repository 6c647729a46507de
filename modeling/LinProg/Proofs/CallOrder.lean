import LinProg.Proofs.SessionPath
import LinProg.ScriptedEngine

/-!
# The order of the calls on a model

Whatever an engine answers and however the hooks end, the calls on a model are those of one course
of the conversation, followed by the release: the release comes once, last, and on every way out.
A problem with a defect reaches no engine, and of an engine that refuses a model nothing more is
asked.
-/

namespace LinProg.Solver

variable {s : Solver} {k : Catalog} {p : Problem}

theorem run_conversation (s : Solver) (p : Problem) (e : Engine) (m : e.Model) :
    (s.conversation p).run e m =
      let run := (s.session p).run e m
      ⟨run.value, (e.answer run.model .release).2, run.exchanges ++ [⟨.release, ()⟩]⟩ :=
  Dialogue.run_bind ..

theorem solve_of_defect {d : Problem.Defect} (hd : p.defect? = some d) :
    s.solve k p = { result := .error (.error d.error) } := by
  simp only [solve, hd]

theorem solve_of_noEngine {err : SolveError} (hd : p.defect? = none)
    (he : s.engine k = .error err) : s.solve k p = { result := .error (.error err) } := by
  simp only [solve, hd, he]

theorem solve_of_engine {e : Engine} (hd : p.defect? = none) (he : s.engine k = .ok e) :
    s.solve k p = s.report (e.visit 0 p.columns (s.conversation p)) := by
  simp only [solve, hd, he]

theorem solve_of_noModel {e : Engine} (hd : p.defect? = none) (he : s.engine k = .ok e)
    (hm : e.create 0 p.columns = none) :
    s.solve k p =
      { result := .error (.error (.engineUnavailable "Unable to create new LP model"))
        created := some (0, p.columns) } := by
  rw [solve_of_engine hd he, Engine.visit_of_refused hm]
  rfl

theorem solve_of_created {e : Engine} {m : e.Model} (hd : p.defect? = none)
    (he : s.engine k = .ok e) (hm : e.create 0 p.columns = some m) :
    s.solve k p =
      let run := (s.session p).run e m
      { run.value with
        result := run.value.result.bind s.judge
        created := some (0, p.columns)
        exchanges := run.exchanges ++ [⟨.release, ()⟩] } := by
  rw [solve_of_engine hd he, Engine.visit_of_created hm, run_conversation]
  rfl

theorem Prepared.ne_release {xs : List Exchange} {ending : HookEnd} (h : s.Prepared p xs ending) :
    ∀ x ∈ xs, x.call ≠ .release := by
  obtain ⟨accepted, hook⟩ := h
  intro x hx
  rcases List.mem_append.1 hx with hb | hh
  · apply ne_release_of_mem_plan
    rw [← accepted.calls_eq]
    exact List.mem_map_of_mem hb
  · intro hr
    have isOpen := hook.isOpen x hh
    rw [hr] at isOpen
    cases isOpen

theorem Completed.ne_release {xs : List Exchange} {solution : Solution} {ending : HookEnd}
    (h : s.Completed p xs solution ending) : ∀ x ∈ xs, x.call ≠ .release := by
  obtain ⟨prepared, extraction, hook⟩ := h
  intro x hx
  rcases List.mem_append.1 hx with hx | hh
  · rcases List.mem_append.1 hx with hp | ha
    · exact prepared.ne_release x hp
    · obtain ⟨⟩ := extraction
      simp only [List.mem_cons, List.not_mem_nil, or_false] at ha
      rcases ha with rfl | rfl | rfl | rfl | rfl | rfl | rfl <;> simp
  · intro hr
    have isOpen := hook.isOpen x hh
    rw [hr] at isOpen
    cases isOpen

theorem Course.ne_release {xs : List Exchange} {r : Except Failure Solution}
    (h : s.Course p xs r) : ∀ x ∈ xs, x.call ≠ .release := by
  cases h with
  | refused h =>
    intro x hx
    exact ne_release_of_mem_plan (h.calls_prefix.subset (List.mem_map_of_mem hx))
  | beforeFailed h => exact h.ne_release
  | beforePanicked h => exact h.ne_release
  | afterFailed h => exact h.ne_release
  | afterPanicked h => exact h.ne_release
  | thrown h => exact h.ne_release
  | returned h => exact h.ne_release

/-- Where a course ends: at a refusal, at a first hook that does not end well, or behind the
second hook. -/
theorem Course.stage {xs : List Exchange} {r : Except Failure Solution} (h : s.Course p xs r) :
    (∃ c, Refuses (s.plan p) xs c) ∨
    (∃ ending, ending ≠ .ok ∧ s.Prepared p xs ending) ∨
    ∃ solution ending, s.Completed p xs solution ending := by
  cases h with
  | refused h => exact .inl ⟨_, h⟩
  | beforeFailed h => exact .inr (.inl ⟨.failed _, nofun, h⟩)
  | beforePanicked h => exact .inr (.inl ⟨.panicked _, nofun, h⟩)
  | afterFailed h => exact .inr (.inr ⟨_, _, h⟩)
  | afterPanicked h => exact .inr (.inr ⟨_, _, h⟩)
  | thrown h => exact .inr (.inr ⟨_, _, h⟩)
  | returned h => exact .inr (.inr ⟨_, _, h⟩)

/-- A course that the engine conducts is what happens. -/
theorem Course.solve_eq {e : Engine} {m m' : e.Model} {xs : List Exchange}
    {r : Except Failure Solution} (h : s.Course p xs r) (hd : p.defect? = none)
    (he : s.engine k = .ok e) (hm : e.create 0 p.columns = some m) (hc : e.Conducts m xs m') :
    (s.solve k p).result = r ∧ (s.solve k p).created = some (0, p.columns) ∧
      (s.solve k p).exchanges = xs ++ [⟨.release, ()⟩] := by
  obtain ⟨v, hv, hr⟩ := (path_session_iff (Problem.defect?_eq_none_iff.1 hd)).2 h
  rw [solve_of_created hd he hm, Dialogue.run_eq_iff.2 ⟨hv, hc⟩]
  exact ⟨hr, rfl, rfl⟩

/-- The engine is asked for one model at most, and its replies decide how far the calls on it get:
to the first that is refused, to the end of a first hook that fails, or to the end of the second
hook. The release follows at once. -/
theorem solve_call_order (s : Solver) (k : Catalog) (p : Problem) (e : Engine)
    (he : s.engine k = .ok e) :
    (p.defect? ≠ none → (s.solve k p).created = none ∧ (s.solve k p).exchanges = []) ∧
    (p.defect? = none →
      (s.solve k p).created = some (0, p.columns) ∧
      (e.create 0 p.columns = none → (s.solve k p).exchanges = []) ∧
      ∀ m, e.create 0 p.columns = some m → ∃ course m',
        (s.solve k p).exchanges = course ++ [⟨.release, ()⟩] ∧
        (∀ x ∈ course, x.call ≠ .release) ∧
        e.Conducts m (s.solve k p).exchanges m' ∧
        ((∃ c, Refuses (s.plan p) course c) ∨
          (∃ ending, ending ≠ .ok ∧ s.Prepared p course ending) ∨
          ∃ solution ending, s.Completed p course solution ending)) := by
  refine ⟨?_, ?_⟩
  · intro hd
    obtain ⟨d, hd⟩ := Option.ne_none_iff_exists'.1 hd
    rw [solve_of_defect hd]
    exact ⟨rfl, rfl⟩
  · intro hd
    refine ⟨?_, ?_, ?_⟩
    · cases hm : e.create 0 p.columns with
      | none => rw [solve_of_noModel hd he hm]
      | some m => rw [solve_of_created hd he hm]
    · intro hm
      rw [solve_of_noModel hd he hm]
    · intro m hm
      rw [solve_of_created hd he hm]
      have hpath := Dialogue.path_run e (s.session p) m
      have hcourse := course_of_path (Problem.defect?_eq_none_iff.1 hd) hpath
      have hconducts := Dialogue.conducts_run e (s.session p) m
      exact ⟨_, _, rfl, hcourse.ne_release,
        Engine.conducts_append.2 ⟨_, hconducts, rfl, rfl⟩, hcourse.stage⟩

/-- An engine that refuses binary columns. -/
def refusingScript : EngineScript where
  status := 0
  objective := Double.zero
  count := 1
  values := none
  iterations := 0
  refusedChanges := ["set_binary"]

def refusedSolver : Solver :=
  (Solver.ofDirection .maximize).withEngine (.scripted refusingScript)

def twoColumns : Problem where
  objective := [Double.zero, Double.zero]
  constraints := [⟨[Double.zero, Double.zero], .greaterOrEqual, Double.zero⟩]
  integer := .uniform true
  binary := .perVariable [false, true]

theorem refusedSolver_call_order :
    refusedSolver.engine .standard = .ok (.scripted refusingScript) ∧
    twoColumns.defect? = none ∧
    (Engine.scripted refusingScript).create 0 2 = some ⟨.new 2, false⟩ ∧
    (refusedSolver.solve .standard twoColumns).exchanges.map (·.call.name) =
      ["set_scaling", "set_verbose", "set_timeout", "set_obj_fn", "set_maxim", "add_constraint",
        "set_int", "set_int", "set_binary", "delete_lp"] ∧
    ∃ course m',
      (refusedSolver.solve .standard twoColumns).exchanges = course ++ [⟨.release, ()⟩] ∧
      (∀ x ∈ course, x.call ≠ .release) ∧
      (Engine.scripted refusingScript).Conducts ⟨.new 2, false⟩
        (refusedSolver.solve .standard twoColumns).exchanges m' ∧
      ((∃ c, Refuses (refusedSolver.plan twoColumns) course c) ∨
        (∃ ending, ending ≠ .ok ∧ refusedSolver.Prepared twoColumns course ending) ∨
        ∃ solution ending, refusedSolver.Completed twoColumns course solution ending) :=
  ⟨rfl, rfl, rfl, by decide,
    ((solve_call_order refusedSolver .standard twoColumns (.scripted refusingScript) rfl).2
      rfl).2.2 _ rfl⟩

end LinProg.Solver
