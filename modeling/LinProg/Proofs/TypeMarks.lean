import LinProg.Proofs.ColumnWrites

/-!
# Marks of integer and binary columns

A mark makes a column an integer or a binary one. What a list of marks makes of a model depends on
its members alone (`editAll_marks`): a column is an integer one if it was or if there is a mark of
either kind for it, and a binary one, between zero and one, if there is a binary mark. So neither
the order of the marks nor their repetition matters; and as marks leave the number of columns alone,
each of them is accepted or refused wherever it stands.
-/

namespace LinProg

inductive Mark where
  | integer (column : Nat)
  | binary (column : Nat)
deriving Repr, DecidableEq

namespace Mark

def column : Mark → Nat
  | .integer c | .binary c => c

/-- The change that makes the column what the mark says. -/
def edit : Mark → ModelEdit
  | .integer c => .setInteger c true
  | .binary c => .setBinary c true

theorem clear_not_mem_map_edit (ms : List Mark) : .clear ∉ ms.map edit := by
  rw [List.mem_map]
  rintro ⟨m, -, hm⟩
  cases m <;> cases hm

end Mark

namespace ModelState

variable {s : ModelState} {ms ns : List Mark}

/-- The model with all the marks: columns with a mark of either kind are integer ones, and columns
with a binary mark are binary ones between zero and one. -/
def marked (s : ModelState) (ms : List Mark) : ModelState :=
  { s with
    integer := overwrite s.integer fun c =>
      if .integer c ∈ ms ∨ .binary c ∈ ms then some true else none
    binary := overwrite s.binary fun c => if .binary c ∈ ms then some true else none
    lower := overwrite s.lower fun c => if .binary c ∈ ms then some Double.zero else none
    upper := overwrite s.upper fun c =>
      if .binary c ∈ ms then some (Double.signedOne false) else none }

theorem marked_congr (h : ∀ m, m ∈ ms ↔ m ∈ ns) : s.marked ms = s.marked ns := by
  simp only [marked, h]

theorem marked_nil (s : ModelState) : s.marked [] = s := by
  simp [marked, overwrite_eq_self]

theorem or_ite_some {α : Type} {v : α} {p q : Prop} [Decidable p] [Decidable q] :
    (if q then some v else none).or (if p then some v else none) =
      if p ∨ q then some v else none := by
  by_cases hq : q <;> simp [hq]

theorem marked_append (s : ModelState) (ms ns : List Mark) :
    s.marked (ms ++ ns) = (s.marked ms).marked ns := by
  have either (c : Nat) :
      (.integer c ∈ ms ∨ .integer c ∈ ns) ∨ (.binary c ∈ ms ∨ .binary c ∈ ns) ↔
        (.integer c ∈ ms ∨ .binary c ∈ ms) ∨ (.integer c ∈ ns ∨ .binary c ∈ ns) :=
    or_or_or_comm
  simp only [marked, overwrite_overwrite, or_ite_some, List.mem_append, either]

/-! ## One mark -/

theorem marked_integer (c : Nat) :
    s.marked [.integer c] =
      { s with integer := overwrite s.integer fun d => if c = d then some true else none } := by
  have none_binary {α : Type} (l : List α) (v : α) :
      overwrite l (fun d => if .binary d ∈ [Mark.integer c] then some v else none) = l :=
    overwrite_eq_self (by simp)
  simp only [marked, none_binary]
  simp [eq_comm]

theorem marked_binary (c : Nat) :
    s.marked [.binary c] =
      { s with
        integer := overwrite s.integer fun d => if c = d then some true else none
        binary := overwrite s.binary fun d => if c = d then some true else none
        lower := overwrite s.lower fun d => if c = d then some Double.zero else none
        upper := overwrite s.upper fun d =>
          if c = d then some (Double.signedOne false) else none } := by
  simp [marked, eq_comm]

theorem edit_mark (h : s.WellFormed) (m : Mark) : (s.edit m.edit).2 = s.marked [m] := by
  cases m with
  | integer c =>
    rw [marked_integer]
    refine edit_snd_of_index? rfl ?_ ?_
    · rintro i rfl
      simp only [set_eq_overwrite, if_true]
    · intro hc
      rw [overwrite_of_outside (h.integer ▸ hc)]
  | binary c =>
    rw [marked_binary]
    refine edit_snd_of_index? rfl ?_ ?_
    · rintro i rfl
      simp only [set_eq_overwrite, if_true]
    · intro hc
      rw [overwrite_of_outside (h.lower ▸ hc), overwrite_of_outside (h.upper ▸ hc),
        overwrite_of_outside (h.integer ▸ hc), overwrite_of_outside (h.binary ▸ hc)]

/-! ## Many marks -/

/-- A list of marks comes to the marks of its members. -/
theorem editAll_marks (h : s.WellFormed) (ms : List Mark) :
    s.editAll (ms.map Mark.edit) = s.marked ms := by
  induction ms generalizing s with
  | nil => exact (marked_nil s).symm
  | cons m ms ih =>
    calc s.editAll ((m :: ms).map Mark.edit)
        = (s.edit m.edit).2.marked ms := ih (h.edit m.edit)
      _ = (s.marked [m]).marked ms := by rw [edit_mark h]
      _ = s.marked (m :: ms) := (marked_append s [m] ms).symm

/-- A mark is accepted just if the model has its column, whatever marks were made before. -/
theorem edit_fst_mark (s : ModelState) (ms : List Mark) (m : Mark) :
    ((s.editAll (ms.map Mark.edit)).edit m.edit).1 =
      (decide (1 ≤ m.column) && decide (m.column ≤ s.columns)) := by
  rw [edit_fst, columns_editAll s (Mark.clear_not_mem_map_edit ms)]
  cases m <;> rfl

/-- Marks have the same effect in any order and with any repetitions: a list of them leads to the
model with the marks of its members, and each mark is accepted wherever it stands, or nowhere. -/
theorem marks_in_any_order (n : Nat) (es : List ModelEdit) (ms : List Mark) :
    let s := (new n).editAll es
    let t := s.editAll (ms.map Mark.edit)
    t = s.marked ms ∧
    (∀ ns : List Mark, (∀ m, m ∈ ns ↔ m ∈ ms) → s.editAll (ns.map Mark.edit) = t) ∧
    ∀ (m : Mark) (before : List Mark),
      ((s.editAll (before.map Mark.edit)).edit m.edit).1 = (s.edit m.edit).1 ∧
      ((s.edit m.edit).1 = true ↔ 1 ≤ m.column ∧ m.column ≤ s.columns) := by
  intro s t
  have wellFormed : s.WellFormed := (wellFormed_new n).editAll es
  refine ⟨editAll_marks wellFormed ms, ?_, ?_⟩
  · intro ns same
    calc s.editAll (ns.map Mark.edit)
        = s.marked ns := editAll_marks wellFormed ns
      _ = s.marked ms := marked_congr same
      _ = t := (editAll_marks wellFormed ms).symm
  · intro m before
    have alone := edit_fst_mark s [] m
    refine ⟨(edit_fst_mark s before m).trans alone.symm, ?_⟩
    rw [← Bool.decide_and] at alone
    exact alone ▸ decide_eq_true_iff

/-- Three columns, the second with bounds of its own. -/
def boundedColumn : List ModelEdit :=
  [.setLowerBound 2 Double.negZero, .setUpperBound 2 Double.zero]

/-- The second column is marked both ways, and there is no fourth one. -/
theorem marks_of_boundedColumn :
    let s := (new 3).editAll boundedColumn
    let t := s.editAll ([.integer 2, .binary 2, .integer 4, .integer 3].map Mark.edit)
    s.editAll ([.binary 2, .integer 3, .binary 2, .integer 4, .integer 2].map Mark.edit) = t ∧
    t.integer = [false, true, true] ∧ t.binary = [false, true, false] ∧
    (t.edit (.setInteger 4 true)).1 = false := by
  intro s t
  obtain ⟨-, order, -⟩ :=
    marks_in_any_order 3 boundedColumn [.integer 2, .binary 2, .integer 4, .integer 3]
  refine ⟨order _ fun m => ?_, rfl, rfl, rfl⟩
  simp only [List.mem_cons, List.not_mem_nil, or_false]
  grind

end ModelState

end LinProg
