import LinProg.Proofs.Consistency
import LinProg.Solving

/-!
# The conversation of a solve

`Solver.Course` tells, stage by stage, how a solver talks with a model up to its release and what
comes of it: the calls that build the problem, up to the first that is refused; the calls of the
first hook; solving and the questions for the result; the calls of the second hook. It reads the
replies but knows no engine.
-/

namespace LinProg

namespace Hook

/-- The calls of a hook with the replies it got, and how it ended on them. -/
inductive Follows : Hook → List Exchange → HookEnd → Prop
  | finish (ending : HookEnd) : Follows (.finish ending) [] ending
  | call {c : Call} {isOpen : c.OpenToHooks} {next : c.Reply → Hook} {r : c.Reply}
      {xs : List Exchange} {ending : HookEnd} (rest : Follows (next r) xs ending) :
      Follows (.call c isOpen next) (⟨c, r⟩ :: xs) ending
  | note {o : Observation} {next : Hook} {xs : List Exchange} {ending : HookEnd}
      (rest : Follows next xs ending) : Follows (.note o next) xs ending

theorem Follows.isOpen {h : Hook} {xs : List Exchange} {ending : HookEnd}
    (hf : h.Follows xs ending) : ∀ x ∈ xs, x.call.OpenToHooks := by
  induction hf with
  | finish ending => simp
  | call rest ih => exact List.forall_mem_cons.2 ⟨by assumption, ih⟩
  | note rest ih => exact ih

end Hook

/-- A hook that is missing makes no calls and ends well. -/
def HookRun : Option Hook → List Exchange → HookEnd → Prop
  | none, xs, ending => xs = [] ∧ ending = .ok
  | some h, xs, ending => h.Follows xs ending

theorem HookRun.isOpen {h : Option Hook} {xs : List Exchange} {ending : HookEnd}
    (hr : HookRun h xs ending) : ∀ x ∈ xs, x.call.OpenToHooks := by
  cases h with
  | none => simp [hr.1]
  | some h => exact Hook.Follows.isOpen hr

/-- All calls are made, and each is accepted. -/
inductive Accepts : List Call → List Exchange → Prop
  | nil : Accepts [] []
  | cons {c : Call} {cs : List Call} {r : c.Reply} {xs : List Exchange}
      (accepted : c.accepted r = true) (rest : Accepts cs xs) :
      Accepts (c :: cs) (⟨c, r⟩ :: xs)

/-- The calls are made up to the first that is refused. -/
inductive Refuses : List Call → List Exchange → Call → Prop
  | here {c : Call} {cs : List Call} {r : c.Reply} (refused : c.accepted r = false) :
      Refuses (c :: cs) [⟨c, r⟩] c
  | later {c d : Call} {cs : List Call} {r : c.Reply} {xs : List Exchange}
      (accepted : c.accepted r = true) (rest : Refuses cs xs d) :
      Refuses (c :: cs) (⟨c, r⟩ :: xs) d

theorem Accepts.calls_eq {cs : List Call} {xs : List Exchange} (h : Accepts cs xs) :
    xs.map Exchange.call = cs := by
  induction h with
  | nil => rfl
  | cons accepted rest ih => rw [List.map_cons, ih]

theorem Accepts.append {cs ds : List Call} {xs ys : List Exchange} (h : Accepts cs xs)
    (h' : Accepts ds ys) : Accepts (cs ++ ds) (xs ++ ys) := by
  induction h with
  | nil => exact h'
  | cons accepted rest ih => exact .cons accepted ih

theorem Refuses.calls_prefix {cs : List Call} {xs : List Exchange} {c : Call}
    (h : Refuses cs xs c) : xs.map Exchange.call <+: cs := by
  induction h with
  | here refused => exact ⟨_, rfl⟩
  | later accepted rest ih => exact List.cons_prefix_cons.2 ⟨rfl, ih⟩

namespace Solver

/-- The calls that a problem stands for: each variable that is designated has its column marked. The
plan looks at the variables only, so it has no marks for flags beyond them. -/
def plan (s : Solver) (p : Problem) : List Call :=
  [.setScaling s.scaling, .setVerbosity s.verbosity.level, .setTimeout s.engineSeconds,
    .setObjective p.objective, .setDirection s.direction] ++
  p.constraints.map (fun c => .addRow c.coefficients c.comparison.code c.value) ++
  (if p.lower = [] then [] else [.setLowerBounds p.lower]) ++
  (if p.upper = [] then [] else [.setUpperBounds p.upper]) ++
  ((List.range p.columns).filter p.integer.designates).map (fun i => .setInteger (i + 1) true) ++
  ((List.range p.columns).filter p.binary.designates).map (fun i => .setBinary (i + 1) true)

/-- In a consistent problem no designation is longer than there are variables. -/
theorem instructions_eq_plan (s : Solver) {p : Problem} (h : p.Consistent) :
    s.instructions p = s.plan p := by
  simp only [instructions, plan, Designation.markedColumns_eq h.integer,
    Designation.markedColumns_eq h.binary, List.map_map, List.isEmpty_iff, Function.comp_def]

/-- The model is built, and the first hook has ended. -/
inductive Prepared (s : Solver) (p : Problem) : List Exchange → HookEnd → Prop
  | intro {built hooked : List Exchange} {ending : HookEnd} (accepted : Accepts (s.plan p) built)
      (hook : HookRun (s.beforeSolve.map (· p)) hooked ending) :
      Prepared s p (built ++ hooked) ending

/-- Solving a model and asking for its result; what the solve itself returns does not count. -/
inductive Extraction : List Exchange → Solution → Prop
  | intro (returned : Int) (objective : Float) (count : Nat) (values : Option (List Float))
      (code : Int) (text : String) (iterations : Nat) :
      Extraction
        [⟨.solve, returned⟩, ⟨.objective, objective⟩, ⟨.solutionCount, count⟩, ⟨.values, values⟩,
          ⟨.status, code⟩, ⟨.statusText code, text⟩, ⟨.iterations, iterations⟩]
        ⟨objective, count, values.getD [], code, text, iterations⟩

/-- The model is solved, and the second hook has ended. -/
inductive Completed (s : Solver) (p : Problem) : List Exchange → Solution → HookEnd → Prop
  | intro {before asked hooked : List Exchange} {solution : Solution} {ending : HookEnd}
      (prepared : Prepared s p before .ok) (extraction : Extraction asked solution)
      (hook : HookRun (s.afterSolve.map (· p solution)) hooked ending) :
      Completed s p (before ++ asked ++ hooked) solution ending

/-- A conversation up to the release of the model, and the result of the solve. -/
inductive Course (s : Solver) (p : Problem) : List Exchange → Except Failure Solution → Prop
  | refused {xs : List Exchange} {c : Call} (h : Refuses (s.plan p) xs c) :
      Course s p xs (.error (.error (.engineRejected c.name)))
  | beforeFailed {xs : List Exchange} {message : String}
      (h : Prepared s p xs (.failed message)) :
      Course s p xs (.error (.error (.hookFailed "before_solve" message)))
  | beforePanicked {xs : List Exchange} {message : String}
      (h : Prepared s p xs (.panicked message)) :
      Course s p xs (.error (.panic message))
  | afterFailed {xs : List Exchange} {solution : Solution} {message : String}
      (h : Completed s p xs solution (.failed message)) :
      Course s p xs (.error (.error (.hookFailed "after_solve" message)))
  | afterPanicked {xs : List Exchange} {solution : Solution} {message : String}
      (h : Completed s p xs solution (.panicked message)) :
      Course s p xs (.error (.panic message))
  | thrown {xs : List Exchange} {solution : Solution} (h : Completed s p xs solution .ok)
      (throws : s.throwOnFailure = true) (code : solution.code ≠ 0) :
      Course s p xs (.error (.error (.solveFailed solution.status solution.code)))
  | returned {xs : List Exchange} {solution : Solution} (h : Completed s p xs solution .ok)
      (fine : s.throwOnFailure = true → solution.code = 0) :
      Course s p xs (.ok solution)

theorem ne_release_of_mem_plan {s : Solver} {p : Problem} {c : Call} (h : c ∈ s.plan p) :
    c ≠ .release := by
  rintro rfl
  simp [plan] at h

end Solver

end LinProg
