import LinProg.Proofs.BufferedRun
import LinProg.Proofs.ColumnWrites
import LinProg.Proofs.FirstFailure
import LinProg.Proofs.SessionStages

/-!
# What a buffered model refuses

A buffered model refuses just those changes that do not fit the number of its columns
(`accepted_answer`), so the first call of the building that does not fit ends it (`value_building`).
-/

namespace LinProg

/-- The change that a call asks for fits a model of `n` columns. A call that asks for none always
does. -/
def Call.fits (n : Nat) (c : Call) : Bool := c.edit?.all (ModelEdit.fits n)

namespace ModelState

variable {b : Backend} {t u : ModelState} {c : Call} {cs : List Call} {xs : List Exchange}

/-- A model accepts the changes that fit it. -/
theorem accepted_answer (b : Backend) (t : ModelState) (c : Call) :
    c.accepted (t.answer b c).1 = c.fits t.columns := by
  rw [Call.fits]
  cases he : c.edit? with
  | some e => exact (answer_of_edit? he b t).1.trans (edit_fst t e)
  | none => exact Call.accepted_of_edit? he _

/-- Only the release changes the number of columns. -/
theorem columns_answer (b : Backend) (t : ModelState) (h : c ≠ .release) :
    (t.answer b c).2.columns = t.columns := by
  obtain hsame | ⟨e, hedit, hclear⟩ := answer_eq_or_edit b t c
  · rw [hsame]
  · rw [hedit]
    exact columns_edit t fun he => h (hclear he)

/-- The first reply tells whether the first call fits, and the rest goes on with as many columns. -/
theorem fits_of_conducts {r : c.Reply} (hc : (Engine.buffered b).Conducts t (⟨c, r⟩ :: xs) u)
    (hr : c ≠ .release) :
    c.fits t.columns = c.accepted r ∧ ∃ v : ModelState, v.columns = t.columns ∧
      (Engine.buffered b).Conducts v xs u := by
  obtain ⟨hreply, hrest⟩ := hc
  refine ⟨?_, _, columns_answer b t hr, hrest⟩
  rw [← accepted_answer b]
  exact congrArg c.accepted hreply.symm

/-- All calls fit a model that accepts them. -/
theorem fits_of_accepts (h : Accepts cs xs) (hc : (Engine.buffered b).Conducts t xs u)
    (hr : .release ∉ cs) : ∀ c ∈ cs, c.fits t.columns = true := by
  -- The model changes from call to call, but the number of its columns stays.
  induction h generalizing t with
  | nil => simp
  | cons accepted rest ih =>
    have hcs := List.ne_and_not_mem_of_not_mem_cons hr
    obtain ⟨hfit, v, hv, hrest⟩ := fits_of_conducts hc hcs.1.symm
    rw [List.forall_mem_cons, hfit, ← hv]
    exact ⟨accepted, ih hrest hcs.2⟩

/-- The call that a model refuses is the first that does not fit it. -/
theorem find?_of_refuses (h : Refuses cs xs c) (hc : (Engine.buffered b).Conducts t xs u)
    (hr : .release ∉ cs) : cs.find? (fun c => !c.fits t.columns) = some c := by
  induction h generalizing t with
  | here refused =>
    have hcs := List.ne_and_not_mem_of_not_mem_cons hr
    obtain ⟨hfit, -⟩ := fits_of_conducts hc hcs.1.symm
    rw [List.find?_cons_of_pos]
    rw [hfit, refused]
    rfl
  | later accepted rest ih =>
    have hcs := List.ne_and_not_mem_of_not_mem_cons hr
    obtain ⟨hfit, v, hv, hrest⟩ := fits_of_conducts hc hcs.1.symm
    rw [List.find?_cons_of_neg, ← hv]
    · exact ih hrest hcs.2
    · rw [hfit, accepted]
      decide

end ModelState

namespace Designation

/-- Flags beyond the first `n` variables, if there are any, are false. -/
def Idle (d : Designation) (n : Nat) : Prop :=
  ∀ flags, d = .perVariable flags → ∀ flag ∈ flags.drop n, flag = false

theorem mem_markedColumns_perVariable {flags : List Bool} {n c : Nat} :
    c ∈ (perVariable flags).markedColumns n ↔ ∃ i, c = i + 1 ∧ flags[i]? = some true := by
  simp only [markedColumns, List.mem_filterMap, Prod.exists, List.mk_mem_zipIdx_iff_getElem?]
  constructor
  · rintro ⟨flag, i, hi, hc⟩
    cases flag with
    | false => cases hc
    | true => exact ⟨i, (Option.some.inj hc).symm, hi⟩
  · rintro ⟨i, rfl, hi⟩
    exact ⟨true, i, hi, rfl⟩

theorem pos_of_mem_markedColumns {d : Designation} {n c : Nat} (h : c ∈ d.markedColumns n) :
    1 ≤ c := by
  cases d with
  | uniform flag =>
    cases flag with
    | true => exact (List.mem_range'_1.1 h).1
    | false => nomatch h
  | perVariable flags =>
    obtain ⟨i, rfl, -⟩ := mem_markedColumns_perVariable.1 h
    exact Nat.succ_pos i

/-- No mark lies beyond the last column just if the flags there are idle. -/
theorem markedColumns_le_iff {d : Designation} {n : Nat} :
    (∀ c ∈ d.markedColumns n, c ≤ n) ↔ d.Idle n := by
  cases d with
  | uniform flag =>
    cases flag <;> simp [Idle, markedColumns]
    omega
  | perVariable flags =>
    simp only [mem_markedColumns_perVariable, Idle, perVariable.injEq, forall_eq']
    -- A mark beyond column n comes from a true flag among those behind the first n, and these are
    -- the ones that dropping n flags leaves.
    constructor
    · intro h flag hflag
      obtain ⟨i, hi⟩ := List.mem_iff_getElem?.1 hflag
      rw [List.getElem?_drop] at hi
      cases flag with
      | false => rfl
      | true =>
        have hle := h _ ⟨n + i, rfl, hi⟩
        omega
    · rintro h c ⟨i, rfl, hi⟩
      by_cases hlt : i < n
      · exact hlt
      · have hmem : true ∈ flags.drop n := by
          apply List.mem_iff_getElem?.2
          refine ⟨i - n, ?_⟩
          rw [List.getElem?_drop, Nat.add_sub_cancel' (by omega), hi]
        cases h true hmem

theorem Fits.idle {d : Designation} {n : Nat} (h : d.Fits n) : d.Idle n := by
  rintro flags rfl flag hflag
  rw [List.drop_eq_nil_of_le (h _ rfl)] at hflag
  nomatch hflag

end Designation

namespace Problem

/-- What an engine checks: rows and bounds have one entry for each column, and no mark lies beyond
the last column. -/
structure Buildable (p : Problem) : Prop where
  constraints : ∀ c ∈ p.constraints, c.coefficients.length = p.columns
  lower : p.lower = [] ∨ p.lower.length = p.columns
  upper : p.upper = [] ∨ p.upper.length = p.columns
  integer : ∀ c ∈ p.integer.markedColumns p.columns, c ≤ p.columns
  binary : ∀ c ∈ p.binary.markedColumns p.columns, c ≤ p.columns

/-- Constraints and bounds are those of a consistent problem, and designations that are too long
have no true flag beyond the variables. -/
structure OnlyIdleFlags (p : Problem) : Prop where
  constraints : ∀ c ∈ p.constraints, c.coefficients.length = p.columns
  lower : p.lower = [] ∨ p.lower.length = p.columns
  upper : p.upper = [] ∨ p.upper.length = p.columns
  integer : p.integer.Idle p.columns
  binary : p.binary.Idle p.columns

theorem buildable_iff_onlyIdleFlags {p : Problem} : p.Buildable ↔ p.OnlyIdleFlags := by
  constructor
  · rintro ⟨constraints, lower, upper, integer, binary⟩
    exact ⟨constraints, lower, upper, Designation.markedColumns_le_iff.1 integer,
      Designation.markedColumns_le_iff.1 binary⟩
  · rintro ⟨constraints, lower, upper, integer, binary⟩
    exact ⟨constraints, lower, upper, Designation.markedColumns_le_iff.2 integer,
      Designation.markedColumns_le_iff.2 binary⟩

theorem Consistent.buildable {p : Problem} (h : p.Consistent) : p.Buildable :=
  buildable_iff_onlyIdleFlags.2
    ⟨h.constraints, h.lower, h.upper, h.integer.idle, h.binary.idle⟩

end Problem

namespace Solver

variable {s : Solver} {k : Catalog} {p : Problem} {b : Backend}

theorem forall_mem_bounds_iff {bounds : List Float} {n : Nat} {c : Call}
    (hc : c.fits n = (bounds.length == n)) :
    (∀ d ∈ (if bounds.isEmpty then [] else [c]), d.fits n = true) ↔
      bounds = [] ∨ bounds.length = n := by
  by_cases hb : bounds = [] <;> simp [hb, hc]

theorem forall_mem_marks_iff {d : Designation} {n : Nat} {f : Nat → Call}
    (hf : ∀ c, (f c).fits n = (decide (1 ≤ c) && decide (c ≤ n))) :
    (∀ c ∈ (d.markedColumns n).map f, c.fits n = true) ↔ ∀ c ∈ d.markedColumns n, c ≤ n := by
  rw [List.forall_mem_map]
  apply forall₂_congr
  intro c hc
  simp [hf, Designation.pos_of_mem_markedColumns hc]

/-- All instructions fit the model just if the engine's checks are met. -/
theorem instructions_fit_iff (s : Solver) (p : Problem) :
    (∀ c ∈ s.instructions p, c.fits p.columns = true) ↔ p.Buildable := by
  have hrows : (∀ c ∈ p.constraints.map fun c =>
        Call.addRow c.coefficients c.comparison.code c.value, c.fits p.columns = true) ↔
      ∀ c ∈ p.constraints, c.coefficients.length = p.columns := by
    rw [List.forall_mem_map]
    apply forall₂_congr
    intro c hc
    cases c.comparison <;> simp [Call.fits, Call.edit?, ModelEdit.fits, Comparison.code]
  have hsettings : ∀ c ∈ [Call.setScaling s.scaling, .setVerbosity s.verbosity.level,
      .setTimeout s.engineSeconds, .setObjective p.objective, .setDirection s.direction],
      c.fits p.columns = true := by
    simp [Call.fits, Call.edit?, ModelEdit.fits, Problem.columns]
  simp only [instructions, List.forall_mem_append, hrows,
    forall_mem_bounds_iff (c := .setLowerBounds p.lower) rfl,
    forall_mem_bounds_iff (c := .setUpperBounds p.upper) rfl,
    forall_mem_marks_iff (f := fun c => .setInteger c true) fun _ => rfl,
    forall_mem_marks_iff (f := fun c => .setBinary c true) fun _ => rfl]
  constructor
  · rintro ⟨⟨⟨⟨⟨-, constraints⟩, lower⟩, upper⟩, integer⟩, binary⟩
    exact ⟨constraints, lower, upper, integer, binary⟩
  · rintro ⟨constraints, lower, upper, integer, binary⟩
    exact ⟨⟨⟨⟨⟨hsettings, constraints⟩, lower⟩, upper⟩, integer⟩, binary⟩

theorem release_not_mem_instructions (s : Solver) (p : Problem) :
    .release ∉ s.instructions p := by
  simp [instructions]

/-- The building stops at the first instruction that does not fit the model. -/
theorem value_building (s : Solver) (p : Problem) (b : Backend) :
    (s.building p (.buffered b) (.new p.columns)).value =
      (s.instructions p).find? fun c => !c.fits p.columns := by
  have hrelease := release_not_mem_instructions s p
  cases hv : (s.building p (.buffered b) (.new p.columns)).value with
  | none =>
    have hfits := ModelState.fits_of_accepts (accepts_building hv) conducts_building hrelease
    symm
    rw [List.find?_eq_none]
    intro c hc
    have hfit : c.fits p.columns = true := hfits c hc
    simp [hfit]
  | some c =>
    exact (ModelState.find?_of_refuses (refuses_building hv) conducts_building hrelease).symm

theorem value_building_eq_none_iff :
    (s.building p (.buffered b) (.new p.columns)).value = none ↔ p.Buildable := by
  rw [value_building, List.find?_eq_none, ← instructions_fit_iff s p]
  simp

theorem session_of_buildable (h : p.Buildable) :
    (∀ x ∈ ((s.withoutHooks.session p).run (.buffered b) (.new p.columns)).exchanges,
      x.call.accepted x.reply = true) ∧
      ∃ solution, ((s.withoutHooks.session p).run (.buffered b) (.new p.columns)).value.result =
        .ok solution := by
  have built := (value_building_eq_none_iff (s := s.withoutHooks) (b := b)).2 h
  refine ⟨accepted_session_withoutHooks built,
    (s.withoutHooks.solving p (.buffered b) (.new p.columns)).value, ?_⟩
  rw [run_session_withoutHooks built]

theorem session_of_not_buildable (h : ¬ p.Buildable) :
    ∃ c, (s.instructions p).find? (fun c => !c.fits p.columns) = some c ∧
      Refuses (s.instructions p)
        ((s.withoutHooks.session p).run (.buffered b) (.new p.columns)).exchanges c ∧
      ((s.withoutHooks.session p).run (.buffered b) (.new p.columns)).value.result =
        .error (.error (.engineRejected c.name)) := by
  rw [← value_building_eq_none_iff (s := s.withoutHooks) (b := b)] at h
  obtain ⟨c, hc⟩ := Option.ne_none_iff_exists'.1 h
  refine ⟨c, ?_, ?_, ?_⟩
  · exact (value_building s.withoutHooks p b).symm.trans hc
  · rw [run_session_of_refused hc]
    exact refuses_building hc
  · rw [run_session_of_refused hc]

/-- A buffered model refuses no change that a consistent problem asks for. -/
theorem not_refuses_of_consistent (hc : p.Consistent) {xs : List Exchange} {c : Call}
    {u : ModelState} (conducts : (Engine.buffered b).Conducts (.new p.columns) xs u) :
    ¬ Refuses (s.plan p) xs c := by
  intro h
  rw [← instructions_eq_plan s hc] at h
  have hfind : (s.instructions p).find? (fun c => !c.fits p.columns) = some c :=
    ModelState.find?_of_refuses h conducts (release_not_mem_instructions s p)
  have hbuilt := (value_building_eq_none_iff (s := s) (b := b)).2 hc.buildable
  rw [value_building, hfind] at hbuilt
  cases hbuilt

/-- A buffered engine hands out a model for every problem, and whatever the hooks do, its model
refuses nothing that the solver asks for. -/
theorem result_ne_of_buffered (engine : s.engine k = .ok (.buffered b)) (text : String) :
    (s.solve k p).result ≠ .error (.error (.engineRejected text)) ∧
      (s.solve k p).result ≠ .error (.error (.engineUnavailable text)) := by
  have hyields := yields_result s k p
  constructor
  · intro hresult
    rw [hresult] at hyields
    cases hyields with
    | noEngine valid missing => rw [engine] at missing; cases missing
    | conversation valid found created conducts course =>
      rw [engine] at found
      cases found
      cases created
      cases course with
      | refused h =>
        have hc := Problem.defect?_eq_none_iff.1 valid
        exact not_refuses_of_consistent hc conducts h
  · intro hresult
    rw [hresult] at hyields
    cases hyields with
    | noEngine valid missing => rw [engine] at missing; cases missing
    | noModel valid found refused => rw [engine] at found; cases found; cases refused
    | conversation valid found created conducts course => cases course

/-- The engine checks the same as the validation does, but for flags that mark nothing: a session
without hooks, whether the problem is valid or not, is refused at the first call that does not fit
the model, and there is one for every problem with a defect but those whose only defects are
designations that go on with false flags. -/
theorem session_agrees_with_validation (s : Solver) (k : Catalog) (p : Problem) (b : Backend) :
    let run := (s.withoutHooks.session p).run (.buffered b) (.new p.columns)
    ((∀ x ∈ run.exchanges, x.call.accepted x.reply = true) ↔ p.Buildable) ∧
    (p.Buildable → ∃ solution, run.value.result = .ok solution) ∧
    (¬ p.Buildable → ∃ c,
      (s.instructions p).find? (fun c => !c.fits p.columns) = some c ∧
      Refuses (s.instructions p) run.exchanges c ∧
      run.value.result = .error (.error (.engineRejected c.name))) ∧
    (p.defect? = none → ∀ x ∈ run.exchanges, x.call.accepted x.reply = true) ∧
    (s.engine k = .ok (.buffered b) → ∀ text,
      (s.solve k p).result ≠ .error (.error (.engineRejected text)) ∧
      (s.solve k p).result ≠ .error (.error (.engineUnavailable text))) ∧
    (p.defect? ≠ none →
      ((∃ operation, run.value.result = .error (.error (.engineRejected operation))) ↔
        ¬ p.OnlyIdleFlags)) := by
  intro run
  have rejected (h : ¬ p.Buildable) := session_of_not_buildable (s := s) (b := b) h
  have accepted (h : p.Buildable) := session_of_buildable (s := s) (b := b) h
  refine ⟨⟨?_, fun h => (accepted h).1⟩, fun h => (accepted h).2, rejected, ?_,
    result_ne_of_buffered, ?_⟩
  · intro haccepted
    refine Classical.byContradiction fun h => ?_
    obtain ⟨c, -, hrefuses, -⟩ := rejected h
    obtain ⟨x, hx, hrefused⟩ := hrefuses.exists_refused
    rw [haccepted x hx] at hrefused
    cases hrefused
  · intro valid
    exact (accepted (Problem.defect?_eq_none_iff.1 valid).buildable).1
  · intro defect
    rw [← Problem.buildable_iff_onlyIdleFlags]
    constructor
    · rintro ⟨operation, hrejected⟩ h
      obtain ⟨solution, hok⟩ := (accepted h).2
      rw [hok] at hrejected
      cases hrejected
    · intro h
      obtain ⟨c, -, -, hresult⟩ := rejected h
      exact ⟨c.name, hresult⟩

def flaggedColumn (flags : List Bool) : Problem where
  objective := [Double.zero]
  integer := .perVariable flags

def bufferedSolver : Solver :=
  (Solver.ofDirection .minimize).withEngine (.buffered (.echo 0))

/-- The second flag of a problem with one column: refused by the engine if it is true, and only by
the validation if it is false. -/
theorem flaggedColumn_checks :
    let run flags := (bufferedSolver.withoutHooks.session (flaggedColumn flags)).run
      (.buffered (.echo 0)) (.new 1)
    ((flaggedColumn [true]).defect? = none ∧
      (∀ x ∈ (run [true]).exchanges, x.call.accepted x.reply = true) ∧
      (bufferedSolver.solve .standard (flaggedColumn [true])).result ≠
        .error (.error (.engineRejected "set_int"))) ∧
    ((flaggedColumn [true, false]).defect? ≠ none ∧ (flaggedColumn [true, false]).OnlyIdleFlags ∧
      ∃ solution, (run [true, false]).value.result = .ok solution) ∧
    (flaggedColumn [true, true]).defect? ≠ none ∧ ¬ (flaggedColumn [true, true]).OnlyIdleFlags ∧
      ∃ operation, (run [true, true]).value.result =
        .error (.error (.engineRejected operation)) := by
  have agrees (flags : List Bool) :=
    session_agrees_with_validation bufferedSolver .standard (flaggedColumn flags) (.echo 0)
  have idle : (flaggedColumn [true, false]).OnlyIdleFlags :=
    ⟨nofun, .inl rfl, .inl rfl, by rintro _ ⟨⟩; decide, by rintro _ ⟨⟩; decide⟩
  have late : ¬ (flaggedColumn [true, true]).OnlyIdleFlags := by
    intro h
    cases h.integer _ rfl true (by decide)
  refine ⟨⟨rfl, (agrees [true]).2.2.2.1 rfl, ((agrees [true]).2.2.2.2.1 rfl "set_int").1⟩,
    ⟨nofun, idle, (agrees [true, false]).2.1 (Problem.buildable_iff_onlyIdleFlags.2 idle)⟩,
    nofun, late, ((agrees [true, true]).2.2.2.2.2 nofun).2 late⟩

end Solver

end LinProg
