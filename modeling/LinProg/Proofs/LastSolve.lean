import LinProg.Proofs.BufferedRun
import LinProg.Proofs.ColumnWrites

/-!
# The last solve

An account is all that a model tells of how it was solved. While calls are made on a buffered
model, in any order, its account is that of a single run of the backend, on the state as it was
when the model was last asked to solve (`LastSolve`), whatever has been changed, or refused, since;
as long as nothing was solved, or again after the model was released (`Unsolved`), the account is
the one of a fresh model.
-/

namespace LinProg

structure Account where
  status : Int
  values : Option (List Float)
  objective : Float
  count : Nat
  iterations : Nat

def Account.unsolved : Account where
  status := -1
  values := none
  objective := Double.zero
  count := 0
  iterations := 0

def Outcome.account (o : Outcome) : Account where
  status := o.status
  values := some o.values
  objective := o.objective
  count := o.count
  iterations := o.iterations

/-! ## Which solve is the last -/

/-- The calls before the last one that solves, if the model is not released after it. -/
def LastSolve (cs earlier : List Call) : Prop :=
  ∃ since, cs = earlier ++ .solve :: since ∧ .solve ∉ since ∧ .release ∉ since

/-- Nothing is solved, or nothing since the model was released. -/
def Unsolved (cs : List Call) : Prop :=
  .solve ∉ cs ∨ ∃ earlier since, cs = earlier ++ .release :: since ∧ .solve ∉ since

theorem LastSolve.cons {c : Call} {cs earlier : List Call} (h : LastSolve cs earlier) :
    LastSolve (c :: cs) (c :: earlier) := by
  obtain ⟨since, rfl, hsince⟩ := h
  exact ⟨since, rfl, hsince⟩

theorem unsolved_or_lastSolve (cs : List Call) : Unsolved cs ∨ ∃ earlier, LastSolve cs earlier := by
  induction cs with
  | nil => exact .inl (.inl List.not_mem_nil)
  | cons c cs ih =>
    obtain (hnone | ⟨earlier, since, rfl, hsince⟩) | ⟨earlier, hlast⟩ := ih
    · by_cases hsolve : c = .solve
      · -- The first call is the only one that solves.
        subst hsolve
        by_cases hrelease : .release ∈ cs
        · obtain ⟨earlier, since, rfl⟩ := List.append_of_mem hrelease
          rw [List.mem_append, not_or, List.mem_cons, not_or] at hnone
          exact .inl (.inr ⟨.solve :: earlier, since, rfl, hnone.2.2⟩)
        · exact .inr ⟨[], cs, rfl, hnone, hrelease⟩
      · exact .inl (.inl (List.not_mem_cons_of_ne_of_not_mem (Ne.symm hsolve) hnone))
    · exact .inl (.inr ⟨c :: earlier, since, rfl, hsince⟩)
    · exact .inr ⟨c :: earlier, hlast.cons⟩

namespace ModelState

section Replies

variable (b : Backend) (t : ModelState)

def account : Account where
  status := (t.answer b .status).1
  values := (t.answer b .values).1
  objective := (t.answer b .objective).1
  count := (t.answer b .solutionCount).1
  iterations := (t.answer b .iterations).1

/-- The model after the calls, whatever it replies to them. -/
def answerAll (cs : List Call) : ModelState :=
  cs.foldl (fun t c => (t.answer b c).2) t

theorem answerAll_append (cs ds : List Call) :
    t.answerAll b (cs ++ ds) = (t.answerAll b cs).answerAll b ds :=
  List.foldl_append ..

end Replies

variable {b : Backend} {t : ModelState} {e : ModelEdit} {c : Call} {cs earlier : List Call}

theorem answerAll_invariant {P : ModelState → Prop} (ht : P t)
    (hstep : ∀ c ∈ cs, ∀ u, P u → P (u.answer b c).2) : P (t.answerAll b cs) := by
  induction cs generalizing t with
  | nil => exact ht
  | cons c cs ih =>
    obtain ⟨hfirst, hrest⟩ := List.forall_mem_cons.1 hstep
    exact ih (hfirst t ht) hrest

/-! ## The recorded outcome -/

theorem outcome_edit (h : e.isSetter = true) : (t.edit e).2.outcome = t.outcome := by
  by_cases he : (t.edit e).1 = true
  · exact (sameSettings_of_edit? h (edit?_of_accepted he)).outcome
  · rw [edit_eq_of_refused (Bool.eq_false_iff.2 he)]

/-- Only solving and releasing a model change its outcome. -/
theorem outcome_answer (hsolve : c ≠ .solve) (hrelease : c ≠ .release) :
    (t.answer b c).2.outcome = t.outcome := by
  cases c with
  | solve => exact absurd rfl hsolve
  | release => exact absurd rfl hrelease
  | setObjective | addRow | setLowerBounds | setUpperBounds | setLowerBound | setUpperBound
  | setInteger | setBinary => exact outcome_edit rfl
  | _ => rfl

theorem outcome_answerAll (hsolve : .solve ∉ cs) (hrelease : .release ∉ cs) :
    (t.answerAll b cs).outcome = t.outcome := by
  apply answerAll_invariant (P := fun u => u.outcome = t.outcome) rfl
  intro c hc u hu
  have hstep : (u.answer b c).2.outcome = u.outcome :=
    outcome_answer (ne_of_mem_of_not_mem hc hsolve) (ne_of_mem_of_not_mem hc hrelease)
  exact hstep.trans hu

/-- Releasing a model again leaves it without an outcome, too. -/
theorem outcome_answerAll_eq_none (ht : t.outcome = none) (hsolve : .solve ∉ cs) :
    (t.answerAll b cs).outcome = none := by
  apply answerAll_invariant (P := fun u => u.outcome = none) ht
  intro c hc u hu
  by_cases hrelease : c = .release
  · subst hrelease
    rfl
  · rw [outcome_answer (ne_of_mem_of_not_mem hc hsolve) hrelease, hu]

end ModelState

open ModelState

variable {b : Backend} {t : ModelState} {cs earlier : List Call}

theorem Unsolved.outcome (h : Unsolved cs) (ht : t.outcome = none) :
    (t.answerAll b cs).outcome = none := by
  obtain hnone | ⟨earlier, since, rfl, hsince⟩ := h
  · exact outcome_answerAll_eq_none ht hnone
  · rw [answerAll_append]
    exact outcome_answerAll_eq_none (t := .new 0) rfl hsince

theorem LastSolve.outcome (h : LastSolve cs earlier) :
    (t.answerAll b cs).outcome = some (b.solve (t.answerAll b earlier)) := by
  obtain ⟨since, rfl, hsolve, hrelease⟩ := h
  rw [answerAll_append]
  exact outcome_answerAll hsolve hrelease

/-! ## What the backend is given -/

theorem Backend.inputs_answerAll (b : Backend) (t : ModelState) (cs ds : List Call) :
    b.inputs t (cs ++ ds) = b.inputs t cs ++ b.inputs (t.answerAll b cs) ds := by
  induction cs generalizing t with
  | nil => rfl
  | cons c cs ih =>
    by_cases hsolve : c = .solve
    · subst hsolve
      exact congrArg (t :: ·) (ih _)
    · rw [List.cons_append, inputs_cons_of_ne hsolve, inputs_cons_of_ne hsolve]
      exact ih _

/-- The last state that the backend is given is that of the last solve. -/
theorem LastSolve.inputs (h : LastSolve cs earlier) :
    b.inputs t cs = b.inputs t earlier ++ [t.answerAll b earlier] := by
  obtain ⟨since, rfl, hsolve, -⟩ := h
  have hquiet : ∀ c ∈ since, c ≠ .solve := fun c hc => ne_of_mem_of_not_mem hc hsolve
  rw [Backend.inputs_answerAll, Backend.inputs, Backend.inputs_eq_nil hquiet]

/-! ## The account -/

namespace ModelState

theorem account_of_none (h : t.outcome = none) : t.account b = .unsolved := by
  simp only [account, answer, status, h]
  rfl

theorem account_of_some {o : Outcome} (h : t.outcome = some o) : t.account b = o.account := by
  simp only [account, answer, status, h]
  rfl

/-- Every model is unsolved or has a last solve. Unsolved it tells nothing, and otherwise what the
backend made of the state at the last solve, which is the last run of the backend; and the reply
to that solve was the status that the model still tells. -/
theorem account_of_last_solve (b : Backend) (rows n : Nat) (cs : List Call) :
    ∃ t : ModelState, (Engine.buffered b).create rows n = some t ∧
      (Unsolved cs ∨ ∃ earlier, LastSolve cs earlier) ∧
      (Unsolved cs → (t.answerAll b cs).account b = .unsolved) ∧
      ∀ earlier, LastSolve cs earlier →
        let solved := t.answerAll b earlier
        (t.answerAll b cs).account b = (b.solve solved).account ∧
        (solved.answer b .solve).1 = ((t.answerAll b cs).account b).status ∧
        b.inputs t cs = b.inputs t earlier ++ [solved] := by
  refine ⟨.new n, rfl, unsolved_or_lastSolve cs, ?_, ?_⟩
  · intro h
    exact account_of_none (h.outcome rfl)
  · intro earlier h solved
    have haccount : ((new n).answerAll b cs).account b = (b.solve solved).account :=
      account_of_some h.outcome
    refine ⟨haccount, ?_, h.inputs⟩
    rw [haccount]
    rfl

/-- Between two solves a lower bound becomes one, and after them it becomes zero again. -/
def resolvedCalls : List Call :=
  [.solve, .setLowerBounds [Double.signedOne false], .solve, .setLowerBounds [],
    .setBinary 1 true]

/-- The lower bounds of the second solve are told until the model is released. -/
theorem resolvedCalls_account :
    let b := Backend.echo 0
    ∃ t : ModelState, (Engine.buffered b).create 0 1 = some t ∧
      LastSolve resolvedCalls (resolvedCalls.take 2) ∧
      (t.answerAll b resolvedCalls).lower = [Double.zero] ∧
      ((t.answerAll b resolvedCalls).account b).values = some [Double.signedOne false] ∧
      ((t.answerAll b resolvedCalls).account b).status = 0 ∧
      Unsolved (resolvedCalls ++ [.release]) ∧
      (t.answerAll b (resolvedCalls ++ [.release])).account b = .unsolved := by
  intro b
  have hlast : LastSolve resolvedCalls (resolvedCalls.take 2) :=
    ⟨[.setLowerBounds [], .setBinary 1 true], rfl, by simp, by simp⟩
  have hreleased : Unsolved (resolvedCalls ++ [.release]) :=
    .inr ⟨resolvedCalls, [], rfl, List.not_mem_nil⟩
  obtain ⟨t, ht, -, -, htold⟩ := account_of_last_solve b 0 1 resolvedCalls
  obtain ⟨t', ht', -, hunsolved, -⟩ := account_of_last_solve b 0 1 (resolvedCalls ++ [.release])
  cases ht
  cases ht'
  refine ⟨.new 1, rfl, hlast, rfl, ?_, ?_, hreleased, hunsolved hreleased⟩
  · rw [(htold _ hlast).1]
    rfl
  · rw [(htold _ hlast).1]
    rfl

end ModelState

end LinProg
