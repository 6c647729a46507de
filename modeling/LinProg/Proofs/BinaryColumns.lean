import LinProg.Proofs.ColumnWrites
import LinProg.Proofs.ProgramMeaning

/-!
# Binary columns

A binary column is an integer column between zero and one, and marking a column makes it one. The
integer mark goes with the binary one, but the bounds may be set anew, and the column is still
called binary. Its bounds are zero and one just if no other bounds have been written since it was
marked (`unitBounds_iff_of_isBinary`), and then it is zero or one in every solution of the program;
with a bound set after the mark it has other solutions (`not_unitBounds_of_bound_after_mark`).
-/

namespace LinProg

namespace ModelEdit

theorem eq_setBinary_of_binary? {e : ModelEdit} {c : Nat} (h : e.binary? c = some true) :
    e = .setBinary c true := by
  cases e with
  | setBinary column flag =>
    obtain ⟨rfl, rfl⟩ : column = c ∧ flag = true := by simpa [binary?] using h
    rfl
  | setInteger column flag => cases flag <;> simp [binary?] at h
  | _ => cases h

end ModelEdit

namespace ModelState

open ModelEdit (lower? upper? binary?)

variable {s : ModelState} {es : List ModelEdit} {n c : Nat}

/-- The bounds of the column are zero, of either sign, and one. -/
def UnitBounds (s : ModelState) (c : Nat) : Prop :=
  (∃ l, s.lowerBound? c = some l ∧ (l == Double.zero) = true) ∧
    s.upperBound? c = some (Double.signedOne false)

/-- A binary column has been marked, and since then no accepted edit has taken the mark away. -/
theorem exists_mark_of_isBinary (h : ((new n).editAll es).isBinary c = true) :
    ∃ before after, es = before ++ .setBinary c true :: after ∧
      let marking := ((new n).editAll before).edit (.setBinary c true)
      marking.1 = true ∧ lastWritten (binary? c) marking.2 after = none := by
  have hlast : lastWritten (binary? c) (new n) es = some true := by
    rw [isBinary_iff, atColumn?_editAll_new WellFormed.binary (fun _ => rfl) Writes.binary n es c,
      Option.ite_none_right_eq_some, Option.some_inj] at h
    simpa [Option.getD_eq_iff] using h.2
  obtain ⟨before, e, after, hes, he, haccepted, hnone⟩ := exists_of_lastWritten hlast
  obtain rfl := ModelEdit.eq_setBinary_of_binary? he
  exact ⟨before, after, hes, haccepted, hnone⟩

theorem not_mem_clear_of_isBinary (h : ((new n).editAll es).isBinary c = true) :
    .clear ∉ es := by
  intro hmem
  have hcolumns := columns_editAll_of_clear (new n) hmem
  rw [isBinary_iff, atColumn?_editAll_new WellFormed.binary (fun _ => rfl) Writes.binary n es c,
    Option.ite_none_right_eq_some] at h
  omega

/-- The bounds of a marked column are those of the mark until they are written over. -/
theorem bounds_of_mark (h : s.WellFormed) (hclear : .clear ∉ .setBinary c true :: es)
    (he : (s.edit (.setBinary c true)).1 = true) :
    let marked := (s.edit (.setBinary c true)).2
    let t := s.editAll (.setBinary c true :: es)
    t.lowerBound? c = some ((lastWritten (lower? c) marked es).getD Double.zero) ∧
    t.upperBound? c = some ((lastWritten (upper? c) marked es).getD (Double.signedOne false)) := by
  intro marked t
  rw [lowerBound?_eq, upperBound?_eq]
  constructor
  · exact read_editAll_cons (fun s => atColumn? s.lower c) (fun hw => hw.lower c) h hclear he
      (by simp [lower?])
  · exact read_editAll_cons (fun s => atColumn? s.upper c) (fun hw => hw.upper c) h hclear he
      (by simp [upper?])

/-- An integer column between zero and one is zero or one. -/
theorem value_of_unitBounds {i : Nat} {x : ℕ → ℚ} (h : s.UnitBounds (i + 1))
    (integer : s.isInteger (i + 1) = true) (feasible : (LinearProgram.ofModel s).Feasible x) :
    x i = 0 ∨ x i = 1 := by
  obtain ⟨⟨l, hl, hzero⟩, hu⟩ := h
  obtain ⟨⟨lower, hlower, below⟩, ⟨upper, hupper, above⟩, whole⟩ :=
    feasible.1 i ⟨l, Double.signedOne false, true⟩
      (LinearProgram.columnsOf_eq_some_iff.2 ⟨hl, hu, isInteger_iff.1 integer⟩)
  rw [Double.ofFloat?_of_toRat? (Double.toRat?_of_beq_zero hzero)] at hlower
  rw [Double.ofFloat?_of_toRat? Double.toRat?_one] at hupper
  cases hlower
  cases hupper
  obtain ⟨k, hk⟩ : ∃ k : ℤ, x i = k := ⟨(x i).num, (Rat.den_eq_one_iff _ |>.1 (whole rfl)).symm⟩
  have hzero : (0 : ℚ) ≤ x i := below
  have hone : x i ≤ (1 : ℚ) := above
  rw [hk] at hzero hone ⊢
  norm_cast at hzero hone ⊢
  omega

theorem getD_iff_forall {α : Type} {p : α → Prop} {o : Option α} {d : α} (hd : p d) :
    p (o.getD d) ↔ ∀ a, o = some a → p a := by
  cases o <;> simp [hd]

/-- A binary column is an integer column, and its bounds are zero and one until others are written
over those of its last mark; as long as they are zero and one, no solution of the program gives it
another value. -/
theorem unitBounds_iff_of_isBinary (n : Nat) (es : List ModelEdit) (c : Nat)
    (h : ((new n).editAll es).isBinary c = true) :
    let s := (new n).editAll es
    s.isInteger c = true ∧
    (∃ before after, es = before ++ .setBinary c true :: after ∧
      let marking := ((new n).editAll before).edit (.setBinary c true)
      let lower := lastWritten (lower? c) marking.2 after
      let upper := lastWritten (upper? c) marking.2 after
      marking.1 = true ∧ lastWritten (binary? c) marking.2 after = none ∧
      s.lowerBound? c = some (lower.getD Double.zero) ∧
      s.upperBound? c = some (upper.getD (Double.signedOne false)) ∧
      (s.UnitBounds c ↔ (∀ l, lower = some l → (l == Double.zero) = true) ∧
        ∀ u, upper = some u → u = Double.signedOne false)) ∧
    (s.UnitBounds c → ∀ x : ℕ → ℚ, (LinearProgram.ofModel s).Feasible x →
      x (c - 1) = 0 ∨ x (c - 1) = 1) := by
  intro s
  have integer : s.isInteger c = true :=
    ((wellFormed_new n).editAll es).isInteger_of_isBinary h
  refine ⟨integer, ?_, ?_⟩
  · have hclear := not_mem_clear_of_isBinary h
    obtain ⟨before, after, rfl, haccepted, hnone⟩ := exists_mark_of_isBinary h
    rw [List.mem_append, not_or] at hclear
    obtain ⟨hlower, hupper⟩ := bounds_of_mark ((wellFormed_new n).editAll before) hclear.2 haccepted
    rw [← editAll_append] at hlower hupper
    refine ⟨before, after, rfl, haccepted, hnone, hlower, hupper, ?_⟩
    simp only [UnitBounds, s, hlower, hupper, Option.some.injEq, exists_eq_left']
    exact and_congr (getD_iff_forall (p := fun l => (l == Double.zero) = true) (by decide))
      (getD_iff_forall (p := fun u => u = Double.signedOne false) rfl)
  · intro unit x feasible
    cases c with
    | zero => cases h
    | succ i => exact value_of_unitBounds unit integer feasible

def ten : Float := Double.ofRat 10

/-- The mark of a column writes over the bound that it had before. -/
theorem unitBounds_of_mark_after_bound :
    let s := (new 1).editAll [.setUpperBound 1 ten, .setBinary 1 true]
    s.isBinary 1 = true ∧ s.UnitBounds 1 ∧
    ∀ x : ℕ → ℚ, (LinearProgram.ofModel s).Feasible x → x 0 = 0 ∨ x 0 = 1 := by
  intro s
  have unit : s.UnitBounds 1 := ⟨⟨Double.zero, rfl, by decide⟩, rfl⟩
  exact ⟨rfl, unit, (unitBounds_iff_of_isBinary 1 _ 1 rfl).2.2 unit⟩

/-- The bound of a column writes over that of its mark, but the mark stays. -/
theorem not_unitBounds_of_bound_after_mark :
    let s := (new 1).editAll [.setBinary 1 true, .setUpperBound 1 ten]
    s.isBinary 1 = true ∧ s.isInteger 1 = true ∧ s.upperBound? 1 = some ten ∧ ¬ s.UnitBounds 1 ∧
    (LinearProgram.ofModel s).Feasible fun _ => 10 := by
  intro s
  have hten : Double.toRat? ten = some 10 := by decide +kernel
  have hcolumns : (LinearProgram.ofModel s).columns = [⟨Double.zero, ten, true⟩] := rfl
  refine ⟨rfl, rfl, rfl, ?_, ?_, nofun⟩
  · rintro ⟨-, hupper⟩
    have hone : ten = Double.signedOne false := Option.some.inj hupper
    rw [hone, Double.toRat?_one] at hten
    cases hten
  · intro i column hcolumn
    rw [hcolumns, List.getElem?_singleton, Option.ite_none_right_eq_some] at hcolumn
    obtain ⟨rfl, hcolumn⟩ := hcolumn
    cases hcolumn
    refine ⟨⟨.finite 0, Double.ofFloat?_of_toRat? (Double.toRat?_of_beq_zero (by decide)), ?_⟩,
      ⟨.finite 10, Double.ofFloat?_of_toRat? hten, Rat.le_refl⟩, fun _ => rfl⟩
    change (0 : ℚ) ≤ 10
    decide

end ModelState

end LinProg
