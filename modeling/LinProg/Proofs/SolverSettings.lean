import LinProg.OptionsFile
import LinProg.Proofs.ReferenceModel
import LinProg.Proofs.SessionStages

/-!
# The settings of a solver

A solver is set up from options at once, or setting by setting in any order. The two keep a limit of
zero seconds in different ways, but an engine is given the same number either way, and so both
solve every problem alike (`solve_setUp`).

An engine is told the limit once, in whole seconds, of which zero means none. The number stays close
to the limit, grows with it, and is zero for no limit but that of zero (`settings_of_options`).
-/

namespace LinProg

/-! ## Whole seconds -/

namespace Duration

theorem toNat_engineSeconds (d : Duration) :
    d.engineSeconds.toNat =
      if 0 < d.totalNanos ∧ d.totalNanos < 10 ^ 9 then 1 else d.totalNanos / 10 ^ 9 := by
  have hd := d.nanos_lt
  have hwhole : d.totalNanos / 10 ^ 9 = d.seconds.toNat := by
    rw [totalNanos]
    omega
  simp only [engineSeconds, d.below_second_iff, hwhole]
  split <;> rfl

theorem engineSeconds_ofSeconds (seconds : UInt64) : (ofSeconds seconds).engineSeconds = seconds :=
  if_neg (by simp [ofSeconds])

theorem engineSeconds_eq_zero_iff (d : Duration) : d.engineSeconds = 0 ↔ d.totalNanos = 0 := by
  rw [← UInt64.toNat_inj, toNat_engineSeconds, UInt64.toNat_zero]
  split <;> omega

/-- The number of whole seconds is off by less than a second. -/
theorem engineSeconds_close (d : Duration) :
    d.totalNanos < (d.engineSeconds.toNat + 1) * 10 ^ 9 ∧
      d.engineSeconds.toNat * 10 ^ 9 < d.totalNanos + 10 ^ 9 := by
  rw [toNat_engineSeconds]
  split <;> omega

theorem engineSeconds_mono {d d' : Duration} (h : d.totalNanos ≤ d'.totalNanos) :
    d.engineSeconds ≤ d'.engineSeconds := by
  rw [UInt64.le_iff_toNat_le, toNat_engineSeconds, toNat_engineSeconds]
  split <;> split <;> omega

end Duration

/-! ## The limit that an engine is told -/

/-- The limit that a call sets. -/
def Call.limit? : Call → Option UInt64
  | .setTimeout seconds => some seconds
  | _ => none

/-- The limits that are set in the course of exchanges. -/
def limits (xs : List Exchange) : List UInt64 := (xs.map Exchange.call).filterMap Call.limit?

theorem limits_append (xs ys : List Exchange) : limits (xs ++ ys) = limits xs ++ limits ys := by
  rw [limits, List.map_append, List.filterMap_append]
  rfl

/-- A first call that cannot be refused is made. -/
theorem Refuses.of_cons {c d : Call} {cs : List Call} {xs : List Exchange}
    (hc : ∀ r, c.accepted r = true) (h : Refuses (c :: cs) xs d) :
    ∃ r ys, xs = ⟨c, r⟩ :: ys ∧ Refuses cs ys d := by
  cases h with
  | @here _ _ r refused =>
    rw [hc r] at refused
    cases refused
  | later accepted rest => exact ⟨_, _, rfl, rest⟩

namespace Solver

variable {s : Solver} {k : Catalog} {p : Problem} {e : Engine} {m : e.Model}

theorem limits_instructions (s : Solver) (p : Problem) :
    (s.instructions p).filterMap Call.limit? = [s.engineSeconds] := by
  have hbounds (c : Call) (hc : c.limit? = none) (bounds : List Float) :
      (if bounds.isEmpty then [] else [c]).filterMap Call.limit? = [] := by
    split <;> simp [hc]
  have hmap {α : Type} (f : α → Call) (hf : ∀ a, (f a).limit? = none) (as : List α) :
      (as.map f).filterMap Call.limit? = [] := by
    simp [hf]
  simp only [instructions, List.filterMap_append, hbounds (.setLowerBounds p.lower) rfl,
    hbounds (.setUpperBounds p.upper) rfl,
    hmap (fun c : Constraint => .addRow c.coefficients c.comparison.code c.value) fun _ => rfl,
    hmap (fun c => .setInteger c true) fun _ => rfl,
    hmap (fun c => .setBinary c true) fun _ => rfl]
  rfl

/-- The limit is set before a call can be refused. -/
theorem limits_of_refuses {xs : List Exchange} {c : Call} (h : Refuses (s.instructions p) xs c) :
    limits xs = [s.engineSeconds] := by
  have hprefix := h.calls_prefix.filterMap Call.limit?
  rw [limits_instructions] at hprefix
  obtain ⟨r₁, xs₁, rfl, h₁⟩ := h.of_cons fun _ => rfl
  obtain ⟨r₂, xs₂, rfl, h₂⟩ := h₁.of_cons fun _ => rfl
  obtain ⟨r₃, xs₃, rfl, -⟩ := h₂.of_cons fun _ => rfl
  change s.engineSeconds :: limits xs₃ <+: [s.engineSeconds] at hprefix
  obtain ⟨-, hrest⟩ := List.cons_prefix_cons.1 hprefix
  change s.engineSeconds :: limits xs₃ = [s.engineSeconds]
  rw [List.prefix_nil.1 hrest]

theorem limits_session (s : Solver) (p : Problem) (e : Engine) (m : e.Model) :
    limits ((s.withoutHooks.session p).run e m).exchanges = [s.engineSeconds] := by
  cases hv : (s.withoutHooks.building p e m).value with
  | some c =>
    rw [run_session_of_refused hv]
    exact limits_of_refuses (refuses_building hv)
  | none =>
    obtain ⟨code, hcalls⟩ := calls_session_of_built hv
    have hasked : (extractionCalls code).filterMap Call.limit? = [] := rfl
    rw [limits, hcalls, List.filterMap_append, limits_instructions, hasked, List.append_nil]

/-- Without hooks an engine is told the limit of the solver, once. -/
theorem limits_solve (valid : p.defect? = none) (engine : s.engine k = .ok e)
    (created : e.create 0 p.columns = some m) :
    limits (s.withoutHooks.solve k p).exchanges = [s.engineSeconds] := by
  rw [exchanges_solve_withoutHooks valid engine created, limits_append, limits_session]
  rfl

/-! ## Options and single settings -/

/-- A solver after some steps of setting it up. -/
def setUp (s : Solver) (steps : List (Solver → Solver)) : Solver := steps.foldl (fun s f => f s) s

/-- The settings of options, one by one. -/
def settings (o : Options) : List (Solver → Solver) :=
  [(·.withScaling o.scaling), (·.withVerbosity o.verbosity), (·.withChoice o.choice)] ++
  (o.timeoutSeconds.map fun seconds s => s.withTimeout (.ofSeconds seconds)).toList ++
  if o.throwOnFailure then [throwing] else []

theorem setUp_settings (o : Options) :
    (ofDirection o.direction).setUp (settings o) =
      { ofOptions o with timeout := o.timeoutSeconds.map .ofSeconds } := by
  obtain ⟨direction, choice, scaling, verbosity, timeout, throwing⟩ := o
  cases timeout <;> cases throwing <;> rfl

theorem eq_of_mem_settings {o : Options} {f : Solver → Solver} (h : f ∈ settings o) :
    f = (·.withScaling o.scaling) ∨ f = (·.withVerbosity o.verbosity) ∨
    f = (·.withChoice o.choice) ∨ f = (·.withTimeout (.ofSeconds (o.timeoutSeconds.getD 0))) ∨
    f = throwing := by
  simp only [settings, List.mem_append, List.mem_cons, List.not_mem_nil, or_false] at h
  rcases h with ((rfl | rfl | rfl) | h) | h
  · exact .inl rfl
  · exact .inr (.inl rfl)
  · exact .inr (.inr (.inl rfl))
  · cases hseconds : o.timeoutSeconds with
    | none =>
      rw [hseconds] at h
      cases h
    | some seconds =>
      rw [hseconds] at h
      obtain rfl := List.mem_singleton.1 h
      exact .inr (.inr (.inr (.inl rfl)))
  · cases hthrows : o.throwOnFailure with
    | false =>
      rw [hthrows] at h
      cases h
    | true =>
      rw [hthrows] at h
      obtain rfl := List.mem_singleton.1 h
      exact .inr (.inr (.inr (.inr rfl)))

/-- Each setting has a place of its own in the solver. -/
theorem settings_comm {o : Options} {f g : Solver → Solver} (hf : f ∈ settings o)
    (hg : g ∈ settings o) (s : Solver) : g (f s) = f (g s) := by
  rcases eq_of_mem_settings hf with rfl | rfl | rfl | rfl | rfl <;>
  rcases eq_of_mem_settings hg with rfl | rfl | rfl | rfl | rfl <;> rfl

theorem setUp_of_perm {o : Options} {steps : List (Solver → Solver)}
    (h : steps.Perm (settings o)) :
    (ofDirection o.direction).setUp steps =
      { ofOptions o with timeout := o.timeoutSeconds.map .ofSeconds } := by
  rw [← setUp_settings]
  refine h.foldl_eq' ?_ _
  intro f hf g hg s
  exact settings_comm (h.subset hf) (h.subset hg) s

theorem engineSeconds_ofOptions (o : Options) :
    (ofOptions o).engineSeconds = o.timeoutSeconds.getD 0 := by
  simp only [engineSeconds, ofOptions, Options.timeout]
  cases o.timeoutSeconds with
  | none => rfl
  | some seconds =>
    by_cases hzero : seconds = 0
    · simp [hzero]
    · simp [hzero, Duration.engineSeconds_ofSeconds]

/-- Of the limit only what the engine is told has an influence on a solve. -/
theorem solve_withLimit {timeout : Option Duration}
    (h : engineSeconds { s with timeout } = s.engineSeconds) (p : Problem) :
    solve { s with timeout } k p = s.solve k p := by
  have hinstructions : instructions { s with timeout } p = s.instructions p := by
    simp only [instructions, h]
  have hsession : session { s with timeout } p = s.session p := by
    simp only [session, hinstructions]
  simp only [solve, conversation, hsession]
  rfl

/-- A solver that is set up in steps has another limit than that of the options only if the limit
is zero, and an engine is told none in both cases. -/
theorem engineSeconds_setUp (o : Options) :
    engineSeconds { ofOptions o with timeout := o.timeoutSeconds.map .ofSeconds } =
      (ofOptions o).engineSeconds := by
  rw [engineSeconds_ofOptions, engineSeconds]
  cases o.timeoutSeconds with
  | none => rfl
  | some seconds => exact Duration.engineSeconds_ofSeconds seconds

theorem solve_setUp {o : Options} {steps : List (Solver → Solver)} (h : steps.Perm (settings o))
    (p : Problem) :
    ((ofDirection o.direction).setUp steps).solve k p = (ofOptions o).solve k p := by
  rw [setUp_of_perm h]
  exact solve_withLimit (engineSeconds_setUp o) p

theorem solve_setUp_withEngine {o : Options} {steps : List (Solver → Solver)}
    (h : steps.Perm (settings o)) (e : Engine) (p : Problem) :
    (((ofDirection o.direction).setUp steps).withEngine e).solve k p =
      ((ofOptions o).withEngine e).solve k p := by
  rw [setUp_of_perm h]
  exact solve_withLimit (s := (ofOptions o).withEngine e) (engineSeconds_setUp o) p

theorem exists_created {c : EngineChoice} (h : k.engine c = .ok e) (n : Nat) :
    ∃ m, e.create 0 n = some m := by
  obtain ⟨b, rfl⟩ := k.exists_backend h
  exact ⟨_, rfl⟩

/-- A solver of options solves like one that is set up by their settings, in whatever order and
whatever engines are built in, and any other engine is asked the same by both. The limit of the
options is told once, as it is, or as zero for none. Of any other limit the whole seconds are told,
or one second for less than that: zero for no limit but that of zero, less than a second off, and
never less for a longer limit. -/
theorem settings_of_options (k : Catalog) (o : Options) (p : Problem) :
    (∀ steps : List (Solver → Solver), steps.Perm (settings o) →
      ((ofDirection o.direction).setUp steps).solve k p = (ofOptions o).solve k p ∧
      ∀ e : Engine, (((ofDirection o.direction).setUp steps).withEngine e).solve k p =
        ((ofOptions o).withEngine e).solve k p) ∧
    (p.defect? = none →
      (∀ e : Engine, k.engine o.choice = .ok e →
        limits ((ofOptions o).solve k p).exchanges = [o.timeoutSeconds.getD 0]) ∧
      ∀ (s : Solver) (d : Duration) (e : Engine) (m : e.Model), s.engine k = .ok e →
        e.create 0 p.columns = some m →
        limits ((s.withTimeout d).withoutHooks.solve k p).exchanges = [d.engineSeconds]) ∧
    ∀ d : Duration, (d.engineSeconds = 0 ↔ d.totalNanos = 0) ∧
      d.totalNanos < (d.engineSeconds.toNat + 1) * 10 ^ 9 ∧
      d.engineSeconds.toNat * 10 ^ 9 < d.totalNanos + 10 ^ 9 ∧
      ∀ d' : Duration, d.totalNanos ≤ d'.totalNanos → d.engineSeconds ≤ d'.engineSeconds := by
  refine ⟨?_, ?_, ?_⟩
  · intro steps hsteps
    exact ⟨solve_setUp hsteps p, fun e => solve_setUp_withEngine hsteps e p⟩
  · intro valid
    constructor
    · intro e available
      obtain ⟨m, created⟩ := exists_created available p.columns
      rw [← engineSeconds_ofOptions]
      exact limits_solve (s := ofOptions o) valid available created
    · intro s d e m engine created
      exact limits_solve (s := s.withTimeout d) valid engine created
  · intro d
    exact ⟨d.engineSeconds_eq_zero_iff, d.engineSeconds_close.1, d.engineSeconds_close.2,
      fun d' => Duration.engineSeconds_mono⟩

/-- Options with a limit of zero. -/
def unlimitedOptions : Options where
  direction := .maximize
  timeoutSeconds := some 0
  throwOnFailure := true

/-- The settings in another order, and half a second, which is told as a whole one. -/
theorem unlimitedOptions_settings :
    let p : Problem := { objective := [Double.zero] }
    p.defect? = none ∧ Catalog.standard.engine unlimitedOptions.choice = .ok (.buffered .exact) ∧
    ((ofDirection .maximize).setUp [throwing, (·.withTimeout (.ofSeconds 0)), (·.withChoice .auto),
      (·.withVerbosity .important), (·.withScaling ⟨0⟩)]).solve .standard p =
        (ofOptions unlimitedOptions).solve .standard p ∧
    limits ((ofOptions unlimitedOptions).solve .standard p).exchanges = [0] ∧
    limits (((ofOptions unlimitedOptions).withTimeout
      ⟨0, 500000000, by decide⟩).withoutHooks.solve .standard p).exchanges = [1] := by
  intro p
  obtain ⟨alike, told, -⟩ := settings_of_options .standard unlimitedOptions p
  obtain ⟨toldOption, toldAny⟩ := told rfl
  exact ⟨rfl, rfl, (alike _ (List.reverse_perm (settings unlimitedOptions))).1, toldOption _ rfl,
    toldAny (ofOptions unlimitedOptions) _ _ _ rfl rfl⟩

end Solver

end LinProg
