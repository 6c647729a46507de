import LinProg.Proofs.CallOrder

/-!
# Forms of designations

One designation can be written in several forms: a flag for all variables, one flag for each, or a
list that leaves false flags out. The forms of one designation mark the same columns
(`Recast.markedColumns_eq`), in increasing order, and so they make no difference to the engine and
to the result, as long as the hooks do not ask for them (`solve_recast`).
-/

namespace LinProg

namespace Designation

/-- The second designation says of `n` variables what the first says, flag by flag. -/
inductive Recast (n : Nat) : Designation → Designation → Prop
  | refl (d : Designation) : Recast n d d
  | allTrue : Recast n (.uniform true) (.perVariable (List.replicate n true))
  | allFalse {k : Nat} (short : k ≤ n) :
      Recast n (.uniform false) (.perVariable (List.replicate k false))
  | padded {flags : List Bool} {k : Nat} (short : flags.length + k ≤ n) :
      Recast n (.perVariable flags) (.perVariable (flags ++ List.replicate k false))

variable {n : Nat} {d d' : Designation}

theorem fits_perVariable_iff {flags : List Bool} :
    (perVariable flags).Fits n ↔ flags.length ≤ n := by
  simp [Fits, length?]

theorem Recast.fits (h : d.Recast n d') (hd : d.Fits n) : d'.Fits n := by
  cases h with
  | refl => exact hd
  | allTrue => simp [fits_perVariable_iff]
  | allFalse short => simpa [fits_perVariable_iff] using short
  | padded short => simpa [fits_perVariable_iff] using short

/-- A list with false flags behind it designates the same variables. -/
theorem designates_padded (flags : List Bool) (k i : Nat) :
    (perVariable (flags ++ List.replicate k false)).designates i =
      (perVariable flags).designates i := by
  simp only [designates, List.getD_eq_getElem?_getD, List.getElem?_append]
  by_cases hi : i < flags.length
  · rw [if_pos hi]
  · rw [if_neg hi, List.getElem?_eq_none (Nat.le_of_not_lt hi), List.getElem?_replicate]
    split <;> rfl

theorem Recast.designates (h : d.Recast n d') {i : Nat} (hi : i < n) :
    d'.designates i = d.designates i := by
  cases h with
  | refl => rfl
  | allTrue => simp [Designation.designates, List.getD_eq_getElem?_getD, hi]
  | @allFalse k short => exact designates_padded [] k i
  | padded short => exact designates_padded _ _ i

theorem Recast.markedColumns_eq (h : d.Recast n d') (hd : d.Fits n) :
    d'.markedColumns n = d.markedColumns n := by
  rw [Designation.markedColumns_eq hd, Designation.markedColumns_eq (h.fits hd)]
  congr 1
  apply List.filter_congr
  intro i hi
  exact h.designates (List.mem_range.1 hi)

theorem pairwise_markedColumns (h : d.Fits n) : (d.markedColumns n).Pairwise (· < ·) := by
  rw [Designation.markedColumns_eq h, List.pairwise_map]
  exact (List.pairwise_lt_range.filter d.designates).imp Nat.succ_lt_succ

theorem mem_markedColumns_iff (h : d.Fits n) {c : Nat} :
    c ∈ d.markedColumns n ↔ 1 ≤ c ∧ c ≤ n ∧ d.designates (c - 1) = true := by
  simp only [Designation.markedColumns_eq h, List.mem_map, List.mem_filter, List.mem_range]
  constructor
  · rintro ⟨i, ⟨hi, hmarked⟩, rfl⟩
    exact ⟨Nat.succ_pos i, hi, hmarked⟩
  · rintro ⟨hpos, hle, hmarked⟩
    exact ⟨c - 1, ⟨by omega, hmarked⟩, by omega⟩

end Designation

/-- What comes of a problem does not depend on its designations. -/
def Problem.IgnoresDesignations {α : Type} (f : Problem → α) : Prop :=
  ∀ (p : Problem) (integer binary : Designation), f { p with integer, binary } = f p

namespace Solver

variable {s : Solver} {p : Problem} {integer binary : Designation}

theorem consistent_recast (hc : p.Consistent) (hinteger : p.integer.Recast p.columns integer)
    (hbinary : p.binary.Recast p.columns binary) :
    Problem.Consistent { p with integer, binary } :=
  { hc with integer := hinteger.fits hc.integer, binary := hbinary.fits hc.binary }

theorem instructions_recast (hc : p.Consistent) (hinteger : p.integer.Recast p.columns integer)
    (hbinary : p.binary.Recast p.columns binary) :
    s.instructions { p with integer, binary } = s.instructions p := by
  have integers : integer.markedColumns p.columns = p.integer.markedColumns p.columns :=
    hinteger.markedColumns_eq hc.integer
  have binaries : binary.markedColumns p.columns = p.binary.markedColumns p.columns :=
    hbinary.markedColumns_eq hc.binary
  simp only [instructions, ← integers, ← binaries]
  rfl

theorem session_recast (hc : p.Consistent) (hinteger : p.integer.Recast p.columns integer)
    (hbinary : p.binary.Recast p.columns binary)
    (before : ∀ f, s.beforeSolve = some f → Problem.IgnoresDesignations f)
    (after : ∀ f, s.afterSolve = some f → Problem.IgnoresDesignations f) :
    s.session { p with integer, binary } = s.session p := by
  have hbefore : s.beforeSolve.map (· { p with integer, binary }) = s.beforeSolve.map (· p) :=
    Option.map_congr fun f hf => before f hf p integer binary
  have hafter (solution : Solution) :
      s.afterSolve.map (· { p with integer, binary } solution) =
        s.afterSolve.map (· p solution) :=
    Option.map_congr fun f hf => congrFun (after f hf p integer binary) solution
  simp only [session, instructions_recast hc hinteger hbinary, hbefore, hafter]

/-- The whole report of a solve stays the same, with all that is asked of the engine and what comes
of it, when designations are written in another form; and their marks are those columns, in
increasing order, whose variables they designate. -/
theorem solve_recast (valid : p.defect? = none) :
    (∀ (s : Solver) (k : Catalog) (integer binary : Designation),
      p.integer.Recast p.columns integer → p.binary.Recast p.columns binary →
      (∀ f, s.beforeSolve = some f → Problem.IgnoresDesignations f) →
      (∀ f, s.afterSolve = some f → Problem.IgnoresDesignations f) →
      s.solve k { p with integer, binary } = s.solve k p) ∧
    ∀ d ∈ [p.integer, p.binary],
      (d.markedColumns p.columns).Pairwise (· < ·) ∧
      (∀ c ∈ d.markedColumns p.columns, 1 ≤ c ∧ c ≤ p.columns) ∧
      ∀ i < p.columns, i + 1 ∈ d.markedColumns p.columns ↔ d.designates i = true := by
  have hc := Problem.defect?_eq_none_iff.1 valid
  constructor
  · intro s k integer binary hinteger hbinary before after
    have valid' := Problem.defect?_eq_none_iff.2 (consistent_recast hc hinteger hbinary)
    simp only [solve, valid, valid', conversation, session_recast hc hinteger hbinary before after]
    rfl
  · have fits : ∀ d ∈ [p.integer, p.binary], d.Fits p.columns := by
      simp only [List.mem_cons, List.not_mem_nil, or_false]
      rintro d (rfl | rfl)
      · exact hc.integer
      · exact hc.binary
    intro d hd
    have marked {c : Nat} := Designation.mem_markedColumns_iff (c := c) (fits d hd)
    refine ⟨Designation.pairwise_markedColumns (fits d hd), ?_, ?_⟩
    · intro c hc
      exact ⟨(marked.1 hc).1, (marked.1 hc).2.1⟩
    · intro i hi
      rw [marked, Nat.add_sub_cancel]
      exact ⟨fun h => h.2.2, fun h => ⟨Nat.succ_pos i, hi, h⟩⟩

/-- A hook that looks at the size of the problem only. -/
def sizeHook (p : Problem) : Hook := .note (.problem p.rows p.columns false) (.finish .ok)

def shortMarks : Problem := { twoColumns with binary := .perVariable [true] }

theorem shortMarks_recast :
    shortMarks.defect? = none ∧
    (refusedSolver.withBeforeSolve sizeHook).solve .standard
      { shortMarks with
        integer := .perVariable [true, true]
        binary := .perVariable [true, false] } =
      (refusedSolver.withBeforeSolve sizeHook).solve .standard shortMarks ∧
    shortMarks.integer.markedColumns 2 = [1, 2] ∧
    ∀ i < 2, i + 1 ∈ shortMarks.binary.markedColumns 2 ↔ shortMarks.binary.designates i = true := by
  obtain ⟨recast, marks⟩ := solve_recast (p := shortMarks) rfl
  have before : ∀ f, (refusedSolver.withBeforeSolve sizeHook).beforeSolve = some f →
      Problem.IgnoresDesignations f := by
    rintro f ⟨⟩ p integer binary
    rfl
  exact ⟨rfl, recast _ _ _ _ .allTrue (.padded (k := 1) (by decide)) before nofun, rfl,
    (marks _ (by simp)).2.2⟩

end Solver

end LinProg
