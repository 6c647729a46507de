import LinProg.Proofs.DoubleBits
import LinProg.Proofs.ModelInvariant

/-!
# What the program of a model means

`ModelState.Satisfies` says of an assignment of rational numbers that it lies within the bounds of a
model, is whole where the model has integer marks, and meets every row; it speaks of the stored
doubles by their exact values and knows nothing of programs. The program that is taken from a model
has the same solutions and the same objective (`ofModel_meaning`), and so it does not matter that
it leaves zero coefficients out: a double equals zero just if its value is zero, with either sign.
-/

namespace LinProg

namespace Double

open Float.Model Float.Model.UnpackedFloat

variable {x : Float}

/-! ## Values of doubles -/

/-- The value of a finite double. -/
def exact (x : Float) : ℚ := (toRat? x).getD 0

/-- The value of a double that may be infinite. -/
def extended (x : Float) : WithBot (WithTop ℚ) :=
  match toRat? x with
  | some r => (r : WithBot (WithTop ℚ))
  | none => if isNegative x then ⊥ else ⊤

@[simp] theorem extended_negInf : extended negInf = ⊥ := by decide +kernel

@[simp] theorem extended_posInf : extended posInf = ⊤ := by decide +kernel

theorem unpack_eq_zero_iff {b : Word} :
    (∃ s, UnpackedFloat.unpack Format.binary64 b = .zero s) ↔ b.toNat % 2 ^ 63 = 0 := by
  have parts : (∃ s, UnpackedFloat.unpack Format.binary64 b = .zero s) ↔
      unpackExponent b = 0#11 ∧ unpackMantissa b = 0#52 := by
    simp only [UnpackedFloat.unpack]
    split_ifs with hexponent hmantissa hzero hsub <;> simp_all
  have hexponent : unpackExponent b = 0#11 ↔ b.toNat / 2 ^ 52 % 2 ^ 11 = 0 := by
    rw [← toNat_unpackExponent b, ← BitVec.toNat_inj]
    rfl
  have hmantissa : unpackMantissa b = 0#52 ↔ b.toNat % 2 ^ 52 = 0 := by
    rw [← toNat_unpackMantissa b, ← BitVec.toNat_inj]
    rfl
  rw [parts, hexponent, hmantissa]
  omega

theorem beq_positive_zero_iff {a : UnpackedFloat} :
    a.beq (.zero .positive) = true ↔ ∃ s, a = .zero s := by
  cases a with
  | notANumber => simp [UnpackedFloat.beq, UnpackedFloat.compare]
  | infinity s | zero s | finite s => cases s <;> simp [UnpackedFloat.beq, UnpackedFloat.compare]

/-- A double equals zero if it is zero of either sign. -/
theorem beq_zero_iff : (x == zero) = true ↔ magnitude x = 0 :=
  (beq_positive_zero_iff (a := x.toModel.unpack)).trans unpack_eq_zero_iff

theorem toRat?_of_beq_zero (h : (x == zero) = true) : toRat? x = some 0 := by
  have hmagnitude := beq_zero_iff.1 h
  have hfinite : isFinite x = true := by
    rw [isFinite_iff, hmagnitude]
    decide
  have hsize : mkRat (units 0) one = 0 := Rat.zero_mkRat one
  simp [toRat?, hfinite, hmagnitude, hsize]

theorem exact_of_beq_zero (h : (x == zero) = true) : exact x = 0 := by
  rw [exact, toRat?_of_beq_zero h, Option.getD_some]

@[simp] theorem exact_zero : exact zero = 0 := exact_of_beq_zero (by decide)

@[simp] theorem exact_negZero : exact negZero = 0 := exact_of_beq_zero (by decide)

theorem toRat?_one : toRat? (signedOne false) = some 1 := by decide +kernel

@[simp] theorem exact_one : exact (signedOne false) = 1 := by
  rw [exact, toRat?_one, Option.getD_some]

theorem toRat?_eq_exact (h : isFinite x = true) : toRat? x = some (exact x) := by
  rw [exact, toRat?, if_pos h, Option.getD_some]

theorem ofFloat?_of_toRat? {r : ℚ} (h : toRat? x = some r) :
    Limit.ofFloat? x = some (.finite r) := by
  rw [Limit.ofFloat?, h]

/-- A bound is a limit that lies below the numbers that its value lies below, and above those that
its value lies above. -/
theorem exists_limit (h : x.isNaN = false) :
    ∃ l, Limit.ofFloat? x = some l ∧
      ∀ r : ℚ, (l.AtMost r ↔ extended x ≤ (r : WithBot (WithTop ℚ))) ∧
        (l.AtLeast r ↔ (r : WithBot (WithTop ℚ)) ≤ extended x) := by
  rw [Limit.ofFloat?, extended]
  cases hx : toRat? x with
  | some q =>
    refine ⟨.finite q, rfl, fun r => ?_⟩
    simp [Limit.AtMost, Limit.AtLeast]
  | none =>
    have hle : magnitude x ≤ infinite := by
      rw [← Nat.not_lt, ← isNaN_iff, h]
      exact Bool.false_ne_true
    have hge : infinite ≤ magnitude x := by
      rw [← Nat.not_lt, ← isFinite_iff]
      intro hfinite
      rw [toRat?_eq_exact hfinite] at hx
      cases hx
    have hinfinite : magnitude x = infinite := Nat.le_antisymm hle hge
    rw [if_pos hinfinite]
    refine ⟨_, rfl, fun r => ?_⟩
    cases isNegative x <;> simp [Limit.AtMost, Limit.AtLeast]

end Double

namespace ModelState

/-! ## Solutions of a model -/

/-- The sum of all columns, each times its coefficient. -/
def linearForm (s : ModelState) (coefficients : List Float) (x : ℕ → ℚ) : ℚ :=
  ∑ i ∈ Finset.range s.columns, Double.exact (coefficients.getD i Double.zero) * x i

/-- The numbers of a model are finite, but for its bounds, which may be infinite. -/
structure Numeric (s : ModelState) : Prop where
  objective : ∀ c ∈ s.objective, Double.isFinite c = true
  coefficients : ∀ row ∈ s.rows, ∀ c ∈ row.coefficients, Double.isFinite c = true
  rhs : ∀ row ∈ s.rows, Double.isFinite row.rhs = true
  lower : ∀ b ∈ s.lower, b.isNaN = false
  upper : ∀ b ∈ s.upper, b.isNaN = false

/-- An assignment, by column from zero, is a solution of a model. -/
structure Satisfies (s : ModelState) (x : ℕ → ℚ) : Prop where
  lower : ∀ i < s.columns, ∃ l, s.lower[i]? = some l ∧
    Double.extended l ≤ (x i : WithBot (WithTop ℚ))
  upper : ∀ i < s.columns, ∃ u, s.upper[i]? = some u ∧
    (x i : WithBot (WithTop ℚ)) ≤ Double.extended u
  integer : ∀ i < s.columns, s.integer[i]? = some true → ∃ k : ℤ, x i = k
  rows : ∀ row ∈ s.rows,
    (row.comparison.code = 1 → s.linearForm row.coefficients x ≤ Double.exact row.rhs) ∧
    (row.comparison.code = 2 → Double.exact row.rhs ≤ s.linearForm row.coefficients x) ∧
    (row.comparison.code = 3 → s.linearForm row.coefficients x = Double.exact row.rhs)

end ModelState

namespace LinearProgram

variable {s : ModelState} {x : ℕ → ℚ}

/-- The terms of a row of coefficients, the zeros included. -/
def allTerms (coefficients : List Float) : List Term :=
  coefficients.zipIdx.map fun c => ⟨c.2, c.1⟩

/-- The program of a model, with terms made of its coefficients in some way. -/
def withTerms (f : List Float → List Term) (s : ModelState) : LinearProgram where
  columns := columnsOf s.lower s.upper s.integer
  maximize := s.maximize
  objective := f s.objective
  rows := s.rows.map fun row => ⟨f row.coefficients, row.comparison, row.rhs⟩

theorem value_cons (t : Term) (ts : List Term) (x : ℕ → ℚ) :
    value (t :: ts) x = Double.exact t.coefficient * x t.index + value ts x :=
  List.sum_cons

/-- Terms with zero coefficients add nothing to a sum. -/
theorem value_terms (coefficients : List Float) (x : ℕ → ℚ) :
    value (terms coefficients) x = value (allTerms coefficients) x := by
  rw [terms, allTerms]
  induction coefficients.zipIdx with
  | nil => rfl
  | cons c cs ih =>
    rw [List.map_cons, value_cons, List.filterMap_cons]
    by_cases hzero : (c.1 == Double.zero) = true
    · rw [if_pos hzero, Double.exact_of_beq_zero hzero, zero_mul, zero_add]
      exact ih
    · rw [if_neg hzero]
      exact (value_cons ..).trans (congrArg _ ih)

theorem terms_of_forall_zero {coefficients : List Float}
    (h : ∀ c ∈ coefficients, (c == Double.zero) = true) : terms coefficients = [] := by
  rw [terms, List.filterMap_eq_nil_iff]
  rintro ⟨c, i⟩ hc
  exact if_pos (h c (List.fst_mem_of_mem_zipIdx hc))

theorem value_zipIdx (coefficients : List Float) (x : ℕ → ℚ) (k : ℕ) :
    value ((coefficients.zipIdx k).map fun c => ⟨c.2, c.1⟩) x =
      ∑ i ∈ Finset.range coefficients.length,
        Double.exact (coefficients.getD i Double.zero) * x (i + k) := by
  -- The first coefficient stands at position k, and the others are counted from k + 1.
  induction coefficients generalizing k with
  | nil => rfl
  | cons c cs ih =>
    rw [List.zipIdx_cons, List.map_cons, value_cons, ih, List.length_cons,
      Finset.sum_range_succ', add_comm]
    simp [add_assoc, add_comm 1 k]

theorem value_allTerms {coefficients : List Float} (h : coefficients.length = s.columns) :
    value (allTerms coefficients) x = s.linearForm coefficients x := by
  rw [allTerms, value_zipIdx, h]
  rfl

theorem columnsOf_eq_some_iff {i : ℕ} {c : Column} :
    (columnsOf s.lower s.upper s.integer)[i]? = some c ↔
      s.lower[i]? = some c.lower ∧ s.upper[i]? = some c.upper ∧ s.integer[i]? = some c.integer := by
  obtain ⟨lower, upper, integer⟩ := c
  rw [← columnAt?_eq, columnAt?]
  cases s.lower[i]? <;> cases s.upper[i]? <;> cases s.integer[i]? <;> simp

theorem admits_iff {c : Column} (lower : c.lower.isNaN = false) (upper : c.upper.isNaN = false)
    (r : ℚ) :
    c.Admits r ↔ Double.extended c.lower ≤ (r : WithBot (WithTop ℚ)) ∧
      (r : WithBot (WithTop ℚ)) ≤ Double.extended c.upper ∧
      (c.integer = true → ∃ k : ℤ, r = k) := by
  obtain ⟨l, hl, below⟩ := Double.exists_limit lower
  obtain ⟨u, hu, above⟩ := Double.exists_limit upper
  have whole : r.den = 1 ↔ ∃ k : ℤ, r = k := by
    constructor
    · intro h
      exact ⟨r.num, (Rat.den_eq_one_iff r |>.1 h).symm⟩
    · rintro ⟨k, rfl⟩
      exact Rat.den_intCast k
  simp [Column.Admits, hl, hu, (below r).1, (above r).2, whole]

/-- The columns of the program admit just what lies within the bounds and marks of the model. -/
theorem forall_admits_iff (wellFormed : s.WellFormed) (numeric : s.Numeric) :
    (∀ i (c : Column), (columnsOf s.lower s.upper s.integer)[i]? = some c → c.Admits (x i)) ↔
      ∀ i < s.columns,
        (∃ l, s.lower[i]? = some l ∧ Double.extended l ≤ (x i : WithBot (WithTop ℚ))) ∧
        (∃ u, s.upper[i]? = some u ∧ (x i : WithBot (WithTop ℚ)) ≤ Double.extended u) ∧
        (s.integer[i]? = some true → ∃ k : ℤ, x i = k) := by
  have admits {i : ℕ} {c : Column} (hl : s.lower[i]? = some c.lower)
      (hu : s.upper[i]? = some c.upper) :=
    admits_iff (numeric.lower _ (List.mem_of_getElem? hl))
      (numeric.upper _ (List.mem_of_getElem? hu)) (x i)
  constructor
  · intro h i hi
    obtain ⟨l, hl⟩ : ∃ l, s.lower[i]? = some l :=
      ⟨_, List.getElem?_eq_getElem (wellFormed.lower.symm ▸ hi)⟩
    obtain ⟨u, hu⟩ : ∃ u, s.upper[i]? = some u :=
      ⟨_, List.getElem?_eq_getElem (wellFormed.upper.symm ▸ hi)⟩
    obtain ⟨flag, hflag⟩ : ∃ flag, s.integer[i]? = some flag :=
      ⟨_, List.getElem?_eq_getElem (wellFormed.integer.symm ▸ hi)⟩
    obtain ⟨below, above, whole⟩ := (admits (c := ⟨l, u, flag⟩) hl hu).1
      (h i ⟨l, u, flag⟩ (columnsOf_eq_some_iff.2 ⟨hl, hu, hflag⟩))
    refine ⟨⟨l, hl, below⟩, ⟨u, hu, above⟩, ?_⟩
    rw [hflag, Option.some_inj]
    exact whole
  · intro h i c hc
    obtain ⟨hl, hu, hflag⟩ := columnsOf_eq_some_iff.1 hc
    have hi : i < s.columns := wellFormed.lower ▸ (List.getElem?_eq_some_iff.1 hl).1
    obtain ⟨⟨l, hl', below⟩, ⟨u, hu', above⟩, whole⟩ := h i hi
    obtain rfl := Option.some.inj (hl.symm.trans hl')
    obtain rfl := Option.some.inj (hu.symm.trans hu')
    exact (admits hl hu).2 ⟨below, above, fun hmark => whole (hmark ▸ hflag)⟩

/-- A row holds as its code says, and there are no other codes. -/
theorem holds_iff {comparison : Comparison} {a b : ℚ} :
    comparison.Holds a b ↔
      (comparison.code = 1 → a ≤ b) ∧ (comparison.code = 2 → b ≤ a) ∧
        (comparison.code = 3 → a = b) := by
  cases comparison <;> simp [Comparison.Holds, Comparison.code]

/-- However the terms are made, the program has the solutions of the model if they have the values
of its rows. -/
theorem feasible_withTerms_iff {f : List Float → List Term} (wellFormed : s.WellFormed)
    (numeric : s.Numeric)
    (hf : ∀ row ∈ s.rows, value (f row.coefficients) x = s.linearForm row.coefficients x) :
    (withTerms f s).Feasible x ↔ s.Satisfies x := by
  have rows : (∀ row ∈ (withTerms f s).rows, row.Holds x) ↔
      ∀ row ∈ s.rows,
        row.comparison.Holds (s.linearForm row.coefficients x) (Double.exact row.rhs) := by
    rw [withTerms, List.forall_mem_map]
    apply forall₂_congr
    intro row hrow
    simp [Row.Holds, Double.toRat?_eq_exact (numeric.rhs row hrow), hf row hrow]
  rw [Feasible, rows]
  simp only [holds_iff]
  refine (and_congr_left' (forall_admits_iff wellFormed numeric)).trans ?_
  constructor
  · rintro ⟨columns, rows⟩
    exact ⟨fun i hi => (columns i hi).1, fun i hi => (columns i hi).2.1,
      fun i hi => (columns i hi).2.2, rows⟩
  · rintro ⟨lower, upper, integer, rows⟩
    exact ⟨fun i hi => ⟨lower i hi, upper i hi, integer i hi⟩, rows⟩

/-- The program that is taken from a model means what the model says, and it would mean the same
with the zeros in it. -/
theorem ofModel_meaning {n : ℕ} (reachable : ModelState.Reachable n s) (numeric : s.Numeric)
    (x : ℕ → ℚ) :
    let q := ofModel s
    lookUp? s = some q ∧
    (q.Feasible x ↔ s.Satisfies x) ∧
    q.objectiveValue x = s.linearForm s.objective x ∧
    (q.maximize = true ↔ s.maximize = true) ∧
    ((withTerms allTerms s).Feasible x ↔ q.Feasible x) ∧
    (withTerms allTerms s).objectiveValue x = q.objectiveValue x ∧
    ∀ row ∈ s.rows, (∀ c ∈ row.coefficients, (c == Double.zero) = true) →
      ⟨[], row.comparison, row.rhs⟩ ∈ q.rows := by
  have wellFormed : s.WellFormed := by
    obtain ⟨es, rfl⟩ := reachable
    exact (ModelState.wellFormed_new n).editAll es
  intro q
  have kept {coefficients : List Float} (h : coefficients.length = s.columns) :
      value (allTerms coefficients) x = s.linearForm coefficients x := value_allTerms h
  have dropped {coefficients : List Float} (h : coefficients.length = s.columns) :
      value (terms coefficients) x = s.linearForm coefficients x :=
    (value_terms coefficients x).trans (kept h)
  have feasible : q.Feasible x ↔ s.Satisfies x :=
    feasible_withTerms_iff wellFormed numeric fun row hrow => dropped (wellFormed.rows row hrow)
  have feasibleWithZeros : (withTerms allTerms s).Feasible x ↔ s.Satisfies x :=
    feasible_withTerms_iff wellFormed numeric fun row hrow => kept (wellFormed.rows row hrow)
  refine ⟨lookUp?_eq wellFormed, feasible, dropped wellFormed.objective, Iff.rfl,
    feasibleWithZeros.trans feasible.symm, (value_terms s.objective x).symm, ?_⟩
  intro row hrow hzero
  rw [← terms_of_forall_zero hzero]
  exact List.mem_map_of_mem hrow

/-- An unlimited and a whole column, with a zero of either sign in the rows and the objective. -/
def zeroRows : ModelState :=
  (ModelState.new 2).editAll
    [.setObjective [Double.negZero, Double.signedOne false],
      .addRow [Double.signedOne false, Double.negZero] 1 (Double.signedOne false),
      .addRow [Double.zero, Double.negZero] 3 Double.zero,
      .setLowerBound 1 Double.negInf, .setInteger 2 true]

theorem linearForm_zeroRows (coefficients : List Float) :
    zeroRows.linearForm coefficients Nat.cast =
      Double.exact (coefficients.getD 1 Double.zero) := by
  have hcolumns : zeroRows.columns = 2 := rfl
  simp [ModelState.linearForm, hcolumns, Finset.sum_range_succ]

/-- The columns may have their own numbers, counted from zero, for their values. -/
theorem satisfies_zeroRows : zeroRows.Satisfies Nat.cast := by
  have hrows : zeroRows.rows =
      [⟨[Double.signedOne false, Double.negZero], .lessOrEqual, Double.signedOne false⟩,
        ⟨[Double.zero, Double.negZero], .equal, Double.zero⟩] := rfl
  have hzero : Double.extended Double.zero = ((0 : ℚ) : WithBot (WithTop ℚ)) := by decide +kernel
  refine ⟨?_, ?_, fun i hi hmark => ⟨i, rfl⟩, ?_⟩
  · rintro (_ | _ | i) hi
    · exact ⟨Double.negInf, rfl, by simp⟩
    · exact ⟨Double.zero, rfl, by rw [hzero]; norm_cast⟩
    · exact absurd hi (Nat.not_lt_of_le (Nat.le_add_left 2 i))
  · rintro (_ | _ | i) hi
    · exact ⟨Double.posInf, rfl, by simp⟩
    · exact ⟨Double.posInf, rfl, by simp⟩
    · exact absurd hi (Nat.not_lt_of_le (Nat.le_add_left 2 i))
  · simp [hrows, linearForm_zeroRows, Comparison.code]

theorem zeroRows_meaning :
    ModelState.Reachable 2 zeroRows ∧ zeroRows.Numeric ∧ (ofModel zeroRows).Feasible Nat.cast ∧
    (ofModel zeroRows).objectiveValue Nat.cast = 1 ∧
    ⟨[], .equal, Double.zero⟩ ∈ (ofModel zeroRows).rows := by
  have reachable : ModelState.Reachable 2 zeroRows := ⟨_, rfl⟩
  have numeric : zeroRows.Numeric :=
    ⟨by decide, by decide, by decide, by decide, by decide⟩
  obtain ⟨-, feasible, objective, -, -, -, zeros⟩ := ofModel_meaning reachable numeric Nat.cast
  refine ⟨reachable, numeric, feasible.2 satisfies_zeroRows, ?_, ?_⟩
  · rw [objective, linearForm_zeroRows]
    exact Double.exact_one
  · exact zeros ⟨[Double.zero, Double.negZero], .equal, Double.zero⟩ (.tail _ (.head _)) (by decide)

end LinearProgram

end LinProg
