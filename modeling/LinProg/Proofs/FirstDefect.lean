import LinProg.Proofs.Consistency

/-!
# The first defect of a problem

The parts of a problem have an order: the constraints as they are declared, then lower and upper
bounds, then the designations. Each has a length, but for a designation of all variables at once,
and its own rule for the lengths that fit. A problem with a part that does not fit is refused for
the first such part (`defect?_eq_some_iff`), and its name tells which part that is
(`Part.name_inj`).
-/

namespace LinProg

namespace Problem

/-- The lengths of a part that fit `n` variables: constraints are complete, bounds are complete or
left out, and designations are not too long. -/
def Part.Admits (n : Nat) : Part → Nat → Prop
  | .constraint _, k => k = n
  | .lower, k | .upper, k => k = 0 ∨ k = n
  | .integer, k | .binary, k => k ≤ n

instance (n : Nat) (part : Part) (k : Nat) : Decidable (part.Admits n k) :=
  match part with
  | .constraint _ => inferInstanceAs (Decidable (k = n))
  | .lower | .upper => inferInstanceAs (Decidable (k = 0 ∨ k = n))
  | .integer | .binary => inferInstanceAs (Decidable (k ≤ n))

/-- The parts in the order in which they are looked at. -/
def parts (p : Problem) : List Part :=
  (List.range p.rows).map .constraint ++ [.lower, .upper, .integer, .binary]

def length? (p : Problem) : Part → Option Nat
  | .constraint i => p.constraints[i]?.map fun c => c.coefficients.length
  | .lower => some p.lower.length
  | .upper => some p.upper.length
  | .integer => p.integer.length?
  | .binary => p.binary.length?

/-- The part, if it has a length, has one that fits the variables. -/
def FitsAt (p : Problem) (part : Part) : Prop :=
  ∀ k, p.length? part = some k → part.Admits p.columns k

def partDefect? (p : Problem) (part : Part) : Option Defect :=
  (p.length? part).bind fun k =>
    if part.Admits p.columns k then none else some ⟨part, p.columns, k⟩

variable {p : Problem} {part : Part} {d : Defect}

theorem partDefect?_eq_none_iff : p.partDefect? part = none ↔ p.FitsAt part := by
  unfold partDefect? FitsAt
  cases p.length? part <;> simp

theorem partDefect?_eq_some_iff :
    p.partDefect? part = some d ↔ ∃ k, p.length? part = some k ∧ ¬ part.Admits p.columns k ∧
      d = ⟨part, p.columns, k⟩ := by
  simp only [partDefect?, Option.bind_eq_some_iff, Option.ite_none_left_eq_some, Option.some.injEq,
    eq_comm (b := d)]

/-! ## The check of each part -/

theorem findSome?_constraintDefect?_eq (p : Problem) :
    p.constraints.zipIdx.findSome? (constraintDefect? p.columns) =
      ((List.range p.rows).map .constraint).findSome? p.partDefect? := by
  have hparts : (List.range p.rows).map Part.constraint =
      p.constraints.zipIdx.map fun c => .constraint c.2 := by
    rw [rows, List.range_eq_range', ← List.zipIdx_map_snd, List.map_map]
    rfl
  have hchecks : p.constraints.zipIdx.map (constraintDefect? p.columns) =
      p.constraints.zipIdx.map fun c => p.partDefect? (.constraint c.2) := by
    apply List.map_congr_left
    rintro ⟨c, i⟩ hc
    rw [List.mk_mem_zipIdx_iff_getElem?] at hc
    simp only [partDefect?, length?, hc]
    rfl
  calc p.constraints.zipIdx.findSome? (constraintDefect? p.columns)
      = (p.constraints.zipIdx.map (constraintDefect? p.columns)).findSome? id := by
        rw [List.findSome?_map]; rfl
    _ = ((List.range p.rows).map .constraint).findSome? p.partDefect? := by
        rw [hchecks, hparts, List.findSome?_map, List.findSome?_map]; rfl

theorem boundsDefect?_eq {part : Part} {bounds : List Float} {n : Nat}
    (hpart : part.Admits n bounds.length ↔ bounds.length = 0 ∨ bounds.length = n) :
    boundsDefect? n part bounds =
      if part.Admits n bounds.length then none else some ⟨part, n, bounds.length⟩ := by
  simp only [boundsDefect?, hpart, Bool.or_eq_true, List.isEmpty_iff_length_eq_zero, beq_iff_eq]

theorem designationDefect?_eq {part : Part} {designation : Designation} {n : Nat}
    (hpart : ∀ k, part.Admits n k ↔ k ≤ n) :
    designationDefect? n part designation =
      designation.length?.bind fun k => if part.Admits n k then none else some ⟨part, n, k⟩ := by
  simp only [designationDefect?, hpart]
  cases designation.length? <;> rfl

theorem defect?_eq_findSome? (p : Problem) : p.defect? = p.parts.findSome? p.partDefect? := by
  have hlower : boundsDefect? p.columns .lower p.lower = p.partDefect? .lower :=
    boundsDefect?_eq Iff.rfl
  have hupper : boundsDefect? p.columns .upper p.upper = p.partDefect? .upper :=
    boundsDefect?_eq Iff.rfl
  have hinteger : designationDefect? p.columns .integer p.integer = p.partDefect? .integer :=
    designationDefect?_eq fun _ => Iff.rfl
  have hbinary : designationDefect? p.columns .binary p.binary = p.partDefect? .binary :=
    designationDefect?_eq fun _ => Iff.rfl
  have hor (f : Part → Option Defect) (part : Part) (rest : List Part) :
      (part :: rest).findSome? f = (f part).or (rest.findSome? f) := by
    rw [List.findSome?_cons]
    cases f part <;> rfl
  rw [defect?, findSome?_constraintDefect?_eq, hlower, hupper, hinteger, hbinary, parts,
    List.findSome?_append]
  simp only [hor, List.findSome?_nil, Option.or_none]

/-! ## What is reported -/

theorem defect?_eq_some_iff :
    p.defect? = some d ↔ ∃ before after k, p.parts = before ++ d.part :: after ∧
      (∀ part ∈ before, p.FitsAt part) ∧ p.length? d.part = some k ∧
      ¬ d.part.Admits p.columns k ∧ d = ⟨d.part, p.columns, k⟩ := by
  rw [defect?_eq_findSome?, List.findSome?_eq_some_iff]
  simp only [partDefect?_eq_some_iff, partDefect?_eq_none_iff]
  constructor
  · rintro ⟨before, part, after, hparts, ⟨k, hk, hmisfit, rfl⟩, hbefore⟩
    exact ⟨before, after, k, hparts, hbefore, hk, hmisfit, rfl⟩
  · rintro ⟨before, after, k, hparts, hbefore, hk, hmisfit, hd⟩
    exact ⟨before, d.part, after, hparts, ⟨k, hk, hmisfit, hd⟩, hbefore⟩

theorem Part.name_constraint (i : Nat) :
    (Part.constraint i).name = "constraint " ++ i.repr ++ " coefficients" :=
  rfl

theorem Part.head?_name (part : Part) :
    part.name.toList.head? = some (match part with
      | .constraint _ => 'c'
      | .lower => 'l'
      | .upper => 'u'
      | .integer => 'i'
      | .binary => 'b') := by
  cases part with
  | constraint i => simp [Part.name_constraint]
  | _ => rfl

/-- The name of a part tells it from all others. -/
theorem Part.name_inj {q : Part} : part.name = q.name ↔ part = q := by
  refine ⟨fun h => ?_, congrArg Part.name⟩
  -- The initials tell the kinds of parts apart.
  have hinitial := congrArg (fun name => name.toList.head?) h
  simp only [Part.head?_name, Option.some.injEq] at hinitial
  cases part <;> cases q <;> cases hinitial
  case constraint.constraint i j =>
    rw [Part.name_constraint, Part.name_constraint, String.append_left_inj,
      String.append_right_inj] at h
    have hdigits : Nat.toDigits 10 i = Nat.toDigits 10 j := by
      simpa using congrArg String.toList h
    rw [← Nat.ofDigitChars_ten_toDigits (n := i), hdigits, Nat.ofDigitChars_ten_toDigits]
  all_goals rfl

theorem consistent_iff_fitsAt : p.Consistent ↔ ∀ part ∈ p.parts, p.FitsAt part := by
  simp only [← defect?_eq_none_iff, defect?_eq_findSome?, List.findSome?_eq_none_iff,
    partDefect?_eq_none_iff]

/-- A designation of all variables at once is never at fault. -/
theorem part_ne_of_uniform {designation : Designation} {flag : Bool}
    (hlength : p.length? part = designation.length?) (huniform : designation = .uniform flag)
    (h : p.defect? = some d) : d.part ≠ part := by
  rintro rfl
  obtain ⟨-, -, k, -, -, hk, -⟩ := defect?_eq_some_iff.1 h
  rw [hlength, huniform] at hk
  cases hk

/-- The problems without a defect are the consistent ones, in which all parts fit; of the others the
first part that does not fit is reported, by its name and its length. -/
theorem first_defect (p : Problem) :
    (p.defect? = none ↔ p.Consistent) ∧
    (p.Consistent ↔ ∀ part ∈ p.parts, p.FitsAt part) ∧
    (∀ e, p.defect?.map Defect.error = some e ↔
      ∃ before part after k, p.parts = before ++ part :: after ∧
        (∀ q ∈ before, p.FitsAt q) ∧ p.length? part = some k ∧ ¬ part.Admits p.columns k ∧
        e = .dimensionMismatch part.name p.columns k) ∧
    (∀ part q : Part, part.name = q.name ↔ part = q) ∧
    ∀ d flag, p.defect? = some d →
      (p.integer = .uniform flag → d.part ≠ .integer) ∧
      (p.binary = .uniform flag → d.part ≠ .binary) := by
  refine ⟨defect?_eq_none_iff, consistent_iff_fitsAt, ?_, fun _ _ => Part.name_inj, ?_⟩
  · intro e
    rw [Option.map_eq_some_iff]
    simp only [defect?_eq_some_iff]
    constructor
    · rintro ⟨d, ⟨before, after, k, hparts, hbefore, hk, hmisfit, hd⟩, rfl⟩
      refine ⟨before, d.part, after, k, hparts, hbefore, hk, hmisfit, ?_⟩
      rw [hd]
      rfl
    · rintro ⟨before, part, after, k, hparts, hbefore, hk, hmisfit, rfl⟩
      exact ⟨⟨part, p.columns, k⟩, ⟨before, after, k, hparts, hbefore, hk, hmisfit, rfl⟩, rfl⟩
  · intro d flag hd
    exact ⟨fun huniform => part_ne_of_uniform rfl huniform hd,
      fun huniform => part_ne_of_uniform rfl huniform hd⟩

/-- A second constraint and a designation that are both too long. -/
def twoDefects : Problem where
  objective := [Double.zero]
  constraints := [{ coefficients := [Double.zero] },
    { coefficients := [Double.zero, Double.zero, Double.zero] }]
  lower := [Double.negZero]
  integer := .uniform true
  binary := .perVariable [false, true]

theorem twoDefects_first :
    twoDefects.defect?.map Defect.error =
      some (.dimensionMismatch "constraint 1 coefficients" 1 3) ∧
    ¬ twoDefects.Consistent ∧
    ∀ d, twoDefects.defect? = some d → d.part ≠ .integer := by
  obtain ⟨accepted, -, reported, -, uniform⟩ := first_defect twoDefects
  have hfirst : ∀ q ∈ [Part.constraint 0], twoDefects.FitsAt q := by
    rintro q hq k hk
    obtain rfl := List.mem_singleton.1 hq
    exact (Option.some.inj hk).symm
  have herror := (reported (.dimensionMismatch "constraint 1 coefficients" 1 3)).2
    ⟨[.constraint 0], .constraint 1, [.lower, .upper, .integer, .binary], 3, rfl, hfirst, rfl,
      by decide, rfl⟩
  refine ⟨herror, fun consistent => ?_, fun d hd => (uniform d true hd).1 rfl⟩
  rw [accepted.2 consistent] at herror
  cases herror

end Problem

end LinProg
