import LinProg.Proofs.Conversation
import LinProg.Proofs.Path

/-!
# The paths of a session

The session of a solver is a dialogue, and its paths are the conversations of `Solver.Course`
(`path_session_iff`). Each part of the session, from the building of the problem to the hooks, has
its own lemma on paths; those on the whole are put together from them.
-/

namespace LinProg

namespace Hook

theorem follows_of_path {h : Hook} {xs : List Exchange} {v : List Observation × HookEnd}
    (hp : h.dialogue.Path xs v) : h.Follows xs v.2 := by
  induction h generalizing xs v with
  | finish ending =>
    obtain ⟨rfl, rfl⟩ := Dialogue.path_done_iff.1 hp
    exact .finish ending
  | call c isOpen next ih =>
    obtain ⟨r, ys, rfl, hr⟩ := Dialogue.path_ask_iff.1 hp
    exact .call (ih r hr)
  | note o next ih =>
    obtain ⟨ys, zs, w, rfl, hy, hz⟩ := Dialogue.path_bind_iff.1 hp
    obtain ⟨rfl, rfl⟩ := Dialogue.path_done_iff.1 hz
    have hw := ih hy
    rw [List.append_nil]
    exact .note hw

theorem Follows.exists_path {h : Hook} {xs : List Exchange} {ending : HookEnd}
    (hf : h.Follows xs ending) : ∃ notes, h.dialogue.Path xs (notes, ending) := by
  induction hf with
  | finish ending => exact ⟨[], .done _⟩
  | call rest ih =>
    obtain ⟨notes, hp⟩ := ih
    exact ⟨notes, .ask hp⟩
  | @note o next xs ending rest ih =>
    obtain ⟨notes, hp⟩ := ih
    exact ⟨o :: notes, Dialogue.path_bind_iff.2 ⟨xs, [], _, xs.append_nil.symm, hp, .done _⟩⟩

end Hook

namespace Solver

theorem path_build_none_iff {cs : List Call} {xs : List Exchange} :
    (build cs).Path xs none ↔ Accepts cs xs := by
  induction cs generalizing xs with
  | nil =>
    rw [build, Dialogue.path_done_iff]
    constructor
    · rintro ⟨rfl, -⟩
      exact .nil
    · rintro ⟨⟩
      exact ⟨rfl, rfl⟩
  | cons c cs ih =>
    rw [build, Dialogue.path_ask_iff]
    constructor
    · rintro ⟨r, ys, rfl, hr⟩
      split at hr
      next accepted => exact .cons accepted (ih.1 hr)
      next => cases hr
    · intro h
      cases h with
      | cons accepted rest => exact ⟨_, _, rfl, by rw [if_pos accepted]; exact ih.2 rest⟩

theorem path_build_some_iff {cs : List Call} {xs : List Exchange} {c : Call} :
    (build cs).Path xs (some c) ↔ Refuses cs xs c := by
  induction cs generalizing xs with
  | nil =>
    rw [build, Dialogue.path_done_iff]
    constructor
    · rintro ⟨-, h⟩
      cases h
    · rintro ⟨⟩
  | cons d cs ih =>
    rw [build, Dialogue.path_ask_iff]
    constructor
    · rintro ⟨r, ys, rfl, hr⟩
      split at hr
      next accepted => exact .later accepted (ih.1 hr)
      next refused =>
        obtain ⟨rfl, hc⟩ := Dialogue.path_done_iff.1 hr
        obtain rfl := Option.some.inj hc
        exact .here (Bool.eq_false_iff.2 refused)
    · intro h
      cases h with
      | here refused => exact ⟨_, [], rfl, by rw [refused]; exact .done _⟩
      | later accepted rest => exact ⟨_, _, rfl, by rw [if_pos accepted]; exact ih.2 rest⟩

theorem path_extract_iff {xs : List Exchange} {solution : Solution} :
    extract.Path xs solution ↔ Extraction xs solution := by
  constructor
  · intro h
    simp only [extract, Dialogue.path_ask_iff, Dialogue.path_done_iff] at h
    obtain ⟨returned, _, rfl, objective, _, rfl, count, _, rfl, values, _, rfl, code, _, rfl,
      text, _, rfl, iterations, _, rfl, rfl, rfl⟩ := h
    exact .intro returned objective count values code text iterations
  · rintro ⟨⟩
    exact .ask (.ask (.ask (.ask (.ask (.ask (.ask (.done _)))))))

theorem hookRun_of_path {h : Option Hook} {xs : List Exchange} {v : List Observation × HookEnd}
    (hp : (runHook h).Path xs v) : HookRun h xs v.2 := by
  cases h with
  | none =>
    obtain ⟨rfl, rfl⟩ := Dialogue.path_done_iff.1 hp
    exact ⟨rfl, rfl⟩
  | some h => exact Hook.follows_of_path hp

theorem exists_path_of_hookRun {h : Option Hook} {xs : List Exchange} {ending : HookEnd}
    (hr : HookRun h xs ending) : ∃ notes, (runHook h).Path xs (notes, ending) := by
  cases h with
  | none =>
    obtain ⟨rfl, rfl⟩ := hr
    exact ⟨[], .done _⟩
  | some h => exact Hook.Follows.exists_path hr

theorem failure?_eq_none_iff {stage : String} {ending : HookEnd} :
    ending.failure? stage = none ↔ ending = .ok := by
  cases ending <;> simp [HookEnd.failure?]

variable {s : Solver} {p : Problem}

theorem Course.of_prepared {xs : List Exchange} {ending : HookEnd} {f : Failure}
    (h : s.Prepared p xs ending) (hf : ending.failure? "before_solve" = some f) :
    s.Course p xs (.error f) := by
  cases ending with
  | ok => cases hf
  | failed message =>
    obtain rfl := Option.some.inj hf
    exact .beforeFailed h
  | panicked message =>
    obtain rfl := Option.some.inj hf
    exact .beforePanicked h

theorem Course.of_completed {xs : List Exchange} {solution : Solution} {ending : HookEnd}
    {f : Failure} (h : s.Completed p xs solution ending)
    (hf : ending.failure? "after_solve" = some f) : s.Course p xs (.error f) := by
  cases ending with
  | ok => cases hf
  | failed message =>
    obtain rfl := Option.some.inj hf
    exact .afterFailed h
  | panicked message =>
    obtain rfl := Option.some.inj hf
    exact .afterPanicked h

theorem judge_of_throws {solution : Solution} (throws : s.throwOnFailure = true)
    (code : solution.code ≠ 0) :
    s.judge solution = .error (.error (.solveFailed solution.status solution.code)) := by
  have hcode : solution.code ≠ Status.optimal.code := code
  simp [judge, throws, hcode]

theorem judge_of_fine {solution : Solution} (fine : s.throwOnFailure = true → solution.code = 0) :
    s.judge solution = .ok solution := by
  have hcode : s.throwOnFailure = true → solution.code = Status.optimal.code := fine
  simpa [judge] using hcode

theorem Course.of_judge {xs : List Exchange} {solution : Solution}
    (h : s.Completed p xs solution .ok) : s.Course p xs (s.judge solution) := by
  by_cases hthrow : s.throwOnFailure = true ∧ solution.code ≠ 0
  · rw [judge_of_throws hthrow.1 hthrow.2]
    exact .thrown h hthrow.1 hthrow.2
  · have fine : s.throwOnFailure = true → solution.code = 0 := by simpa using hthrow
    rw [judge_of_fine fine]
    exact .returned h fine

/-- The session behind the first hook: solving, and the second hook. -/
def conclude (s : Solver) (p : Problem) (before : List Observation) : Dialogue Session := do
  let solution ← extract
  let (after, ending) ← runHook (s.afterSolve.map (· p solution))
  match ending.failure? "after_solve" with
  | some f => return ⟨.error f, before, after⟩
  | none => return ⟨.ok solution, before, after⟩

theorem course_of_path_conclude {xs ys : List Exchange} {before : List Observation} {v : Session}
    (prepared : s.Prepared p xs .ok) (h : (s.conclude p before).Path ys v) :
    s.Course p (xs ++ ys) (v.result.bind s.judge) := by
  obtain ⟨asked, zs, solution, rfl, hask, h⟩ := Dialogue.path_bind_iff.1 h
  obtain ⟨hooked, us, ⟨after, ending⟩, rfl, hhook, h⟩ := Dialogue.path_bind_iff.1 h
  have completed : s.Completed p (xs ++ asked ++ hooked) solution ending :=
    .intro prepared (path_extract_iff.1 hask) (hookRun_of_path hhook)
  rw [← List.append_assoc, ← List.append_assoc]
  dsimp only at h
  split at h
  next f hf =>
    obtain ⟨rfl, rfl⟩ := Dialogue.path_done_iff.1 h
    rw [List.append_nil]
    exact .of_completed completed hf
  next hf =>
    obtain rfl := failure?_eq_none_iff.1 hf
    obtain ⟨rfl, rfl⟩ := Dialogue.path_done_iff.1 h
    rw [List.append_nil]
    exact .of_judge completed

theorem course_of_path (hc : p.Consistent) {xs : List Exchange} {v : Session}
    (h : (s.session p).Path xs v) : s.Course p xs (v.result.bind s.judge) := by
  rw [session, instructions_eq_plan s hc] at h
  obtain ⟨built, ys, stop, rfl, hbuild, h⟩ := Dialogue.path_bind_iff.1 h
  cases stop with
  | some c =>
    obtain ⟨rfl, rfl⟩ := Dialogue.path_done_iff.1 h
    rw [List.append_nil]
    exact .refused (path_build_some_iff.1 hbuild)
  | none =>
    obtain ⟨hooked, zs, ⟨before, ending⟩, rfl, hhook, h⟩ := Dialogue.path_bind_iff.1 h
    have prepared : s.Prepared p (built ++ hooked) ending :=
      .intro (path_build_none_iff.1 hbuild) (hookRun_of_path hhook)
    rw [← List.append_assoc]
    dsimp only at h
    split at h
    next f hf =>
      obtain ⟨rfl, rfl⟩ := Dialogue.path_done_iff.1 h
      rw [List.append_nil]
      exact .of_prepared prepared hf
    next hf =>
      obtain rfl := failure?_eq_none_iff.1 hf
      exact course_of_path_conclude prepared h

theorem exists_path_of_prepared (hc : p.Consistent) {xs : List Exchange} {ending : HookEnd}
    (h : s.Prepared p xs ending) :
    ∃ before,
      (∀ f, ending.failure? "before_solve" = some f →
        (s.session p).Path xs ⟨.error f, before, []⟩) ∧
      (ending = .ok → ∀ ys v, (s.conclude p before).Path ys v →
        (s.session p).Path (xs ++ ys) v) := by
  obtain ⟨accepted, hook⟩ := h
  rename_i built hooked
  obtain ⟨before, hbefore⟩ := exists_path_of_hookRun hook
  have hbuild := path_build_none_iff.2 accepted
  rw [session, instructions_eq_plan s hc]
  refine ⟨before, ?_, ?_⟩
  · intro f hf
    refine Dialogue.path_bind_iff.2 ⟨built, hooked, none, rfl, hbuild, ?_⟩
    refine Dialogue.path_bind_iff.2 ⟨hooked, [], _, hooked.append_nil.symm, hbefore, ?_⟩
    simp only [hf]
    exact .done _
  · rintro rfl ys v hv
    rw [List.append_assoc]
    refine Dialogue.path_bind_iff.2 ⟨built, hooked ++ ys, none, rfl, hbuild, ?_⟩
    exact Dialogue.path_bind_iff.2 ⟨hooked, ys, _, rfl, hbefore, hv⟩

theorem path_conclude {asked hooked : List Exchange} {solution : Solution} {ending : HookEnd}
    {before after : List Observation} (extraction : Extraction asked solution)
    (hafter : (runHook (s.afterSolve.map (· p solution))).Path hooked (after, ending)) :
    (s.conclude p before).Path (asked ++ hooked)
      ⟨match ending.failure? "after_solve" with
        | some f => .error f
        | none => .ok solution, before, after⟩ := by
  refine Dialogue.path_bind_iff.2 ⟨asked, hooked, solution, rfl, path_extract_iff.2 extraction, ?_⟩
  refine Dialogue.path_bind_iff.2 ⟨hooked, [], _, hooked.append_nil.symm, hafter, ?_⟩
  dsimp only
  cases ending.failure? "after_solve" with
  | none => exact .done _
  | some f => exact .done _

theorem exists_path_of_completed (hc : p.Consistent) {xs : List Exchange} {solution : Solution}
    {ending : HookEnd} (h : s.Completed p xs solution ending) :
    ∃ v, (s.session p).Path xs v ∧
      v.result = match ending.failure? "after_solve" with
        | some f => .error f
        | none => .ok solution := by
  obtain ⟨prepared, extraction, hook⟩ := h
  obtain ⟨before, -, hsession⟩ := exists_path_of_prepared hc prepared
  obtain ⟨after, hafter⟩ := exists_path_of_hookRun hook
  rw [List.append_assoc]
  exact ⟨_, hsession rfl _ _ (path_conclude extraction hafter), rfl⟩

theorem exists_path_of_course (hc : p.Consistent) {xs : List Exchange}
    {r : Except Failure Solution} (h : s.Course p xs r) :
    ∃ v, (s.session p).Path xs v ∧ v.result.bind s.judge = r := by
  cases h with
  | @refused c h =>
    refine ⟨⟨.error (.error (.engineRejected c.name)), [], []⟩, ?_, rfl⟩
    rw [session, instructions_eq_plan s hc]
    exact Dialogue.path_bind_iff.2
      ⟨xs, [], _, xs.append_nil.symm, path_build_some_iff.2 h, .done _⟩
  | beforeFailed h =>
    obtain ⟨before, hfail, -⟩ := exists_path_of_prepared hc h
    exact ⟨_, hfail _ rfl, rfl⟩
  | beforePanicked h =>
    obtain ⟨before, hfail, -⟩ := exists_path_of_prepared hc h
    exact ⟨_, hfail _ rfl, rfl⟩
  | afterFailed h =>
    obtain ⟨v, hv, hr⟩ := exists_path_of_completed hc h
    exact ⟨v, hv, by rw [hr]; rfl⟩
  | afterPanicked h =>
    obtain ⟨v, hv, hr⟩ := exists_path_of_completed hc h
    exact ⟨v, hv, by rw [hr]; rfl⟩
  | thrown h throws code =>
    obtain ⟨v, hv, hr⟩ := exists_path_of_completed hc h
    exact ⟨v, hv, by rw [hr]; exact judge_of_throws throws code⟩
  | returned h fine =>
    obtain ⟨v, hv, hr⟩ := exists_path_of_completed hc h
    exact ⟨v, hv, by rw [hr]; exact judge_of_fine fine⟩

theorem path_session_iff (hc : p.Consistent) {xs : List Exchange}
    {r : Except Failure Solution} :
    (∃ v, (s.session p).Path xs v ∧ v.result.bind s.judge = r) ↔ s.Course p xs r := by
  constructor
  · rintro ⟨v, hv, rfl⟩
    exact course_of_path hc hv
  · exact exists_path_of_course hc

end Solver

end LinProg
