import LinProg.Proofs.BoundSide
import LinProg.Proofs.ColumnWrites

/-!
# Bounds set one by one and all at once

The bounds of one side can be replaced as a whole or column by column, and both ways agree. Setting
bounds one by one, in the model's columns or beside them, comes to replacing the old bounds by those
in which each column has the last value it was given (`editAll_singles`); so a vector with one entry
for each column is set by its entries in any order.
-/

namespace LinProg

namespace BoundSide

/-- Changes of single bounds, for pairs of a column and its bound. -/
def singles (side : BoundSide) (pairs : List (Nat × Float)) : List ModelEdit :=
  pairs.map fun p => side.single p.1 p.2

variable {side : BoundSide} {s : ModelState}

theorem length_bounds (h : s.WellFormed) : (side.bounds s).length = s.columns := by
  cases side with
  | lower => exact h.lower
  | upper => exact h.upper

theorem fits_single (n c : Nat) (x : Float) :
    (side.single c x).fits n = (decide (1 ≤ c) && decide (c ≤ n)) := by
  cases side <;> rfl

theorem clear_not_mem_singles (pairs : List (Nat × Float)) : .clear ∉ side.singles pairs := by
  rw [singles, List.mem_map]
  rintro ⟨p, -, hp⟩
  cases side <;> cases hp

end BoundSide

/-! ## The last values -/

/-- The values with those columns changed that are given new ones, the last of which counts. -/
def lastValues (values : List Float) (pairs : List (Nat × Float)) : List Float :=
  overwrite values fun c => pairs.reverse.lookup c

section LastValues

variable {values v : List Float}

theorem length_lastValues (pairs : List (Nat × Float)) :
    (lastValues values pairs).length = values.length :=
  length_overwrite

theorem lastValues_nil : lastValues values [] = values :=
  overwrite_eq_self fun _ _ _ => rfl

theorem lastValues_singleton (c : Nat) (x : Float) :
    lastValues values [(c, x)] = overwrite values fun d => if c = d then some x else none := by
  have hlookup (d : Nat) : [(c, x)].lookup d = if c = d then some x else none := by
    by_cases hd : c = d
    · simp [hd]
    · simp [List.lookup_cons, beq_false_of_ne (Ne.symm hd), hd]
  simp only [lastValues, List.reverse_singleton, hlookup]

theorem lastValues_cons (p : Nat × Float) (pairs : List (Nat × Float)) :
    lastValues values (p :: pairs) = lastValues (lastValues values [p]) pairs := by
  simp only [lastValues, overwrite_overwrite, List.reverse_cons, List.lookup_append,
    List.reverse_nil, List.nil_append]

/-- What is found in a list whose pairs agree. -/
theorem lookup_eq_of_mem_iff {l : List (Nat × Float)} {c : Nat} {o : Option Float}
    (h : ∀ x, (c, x) ∈ l ↔ o = some x) : l.lookup c = o := by
  cases hl : l.lookup c with
  | none =>
    rw [List.lookup_eq_none_iff] at hl
    cases o with
    | none => rfl
    | some x => simpa using hl (c, x) ((h x).2 rfl)
  | some x =>
    obtain ⟨before, after, rfl, -⟩ := List.lookup_eq_some_iff.1 hl
    exact ((h x).1 (by simp)).symm

/-- The entries of a list with their columns, in whatever order, leave nothing of the old values. -/
theorem lastValues_of_perm {order : List (Float × Nat)} (hlen : v.length = values.length)
    (h : order.Perm v.zipIdx) :
    lastValues values (order.map fun x => (x.2 + 1, x.1)) = v := by
  have hlookup (c : Nat) :
      (order.map fun x => (x.2 + 1, x.1)).reverse.lookup c = atColumn? v c := by
    apply lookup_eq_of_mem_iff
    intro x
    simp only [List.mem_reverse, List.mem_map, h.mem_iff, Prod.exists, Prod.mk.injEq,
      List.mk_mem_zipIdx_iff_getElem?]
    cases c with
    | zero => simp [atColumn?]
    | succ i =>
      simp only [atColumn?, Nat.add_right_cancel_iff]
      constructor
      · rintro ⟨_, _, hget, rfl, rfl⟩
        exact hget
      · intro hget
        exact ⟨x, i, hget, rfl, rfl⟩
  simp only [lastValues, hlookup, overwrite_atColumn? hlen]

end LastValues

namespace ModelState

variable {s : ModelState} {side : BoundSide}

theorem edit_bulk {v : List Float} (h : v.length = s.columns) :
    s.edit (side.bulk v) = (true, side.withBounds s v) := by
  rw [edit, side.edit?_bulk, if_pos h]

theorem edit_single (h : s.WellFormed) (c : Nat) (x : Float) :
    (s.edit (side.single c x)).2 = side.withBounds s (lastValues (side.bounds s) [(c, x)]) := by
  rw [lastValues_singleton]
  refine edit_snd_of_index? (side.edit?_single s c x) ?_ ?_
  · rintro i rfl
    rw [set_eq_overwrite]
  · intro hc
    rw [overwrite_of_outside (side.length_bounds h ▸ hc), BoundSide.withBounds_bounds]

/-- Bounds set one by one are the old ones with the last values in place. -/
theorem editAll_singles (h : s.WellFormed) (pairs : List (Nat × Float)) :
    s.editAll (side.singles pairs) = side.withBounds s (lastValues (side.bounds s) pairs) := by
  induction pairs generalizing s with
  | nil => rw [lastValues_nil, BoundSide.withBounds_bounds]; rfl
  | cons p pairs ih =>
    let t := (s.edit (side.single p.1 p.2)).2
    have ht : t = side.withBounds s (lastValues (side.bounds s) [p]) := edit_single h p.1 p.2
    calc s.editAll (side.singles (p :: pairs))
        = side.withBounds t (lastValues (side.bounds t) pairs) := ih (h.edit _)
      _ = side.withBounds s (lastValues (lastValues (side.bounds s) [p]) pairs) := by
        rw [ht, BoundSide.bounds_withBounds, BoundSide.withBounds_withBounds]
      _ = side.withBounds s (lastValues (side.bounds s) (p :: pairs)) := by rw [← lastValues_cons]

/-- The entries of a vector with one entry for each column are all accepted. -/
theorem accepted_singles_of_perm {v : List Float} {order : List (Float × Nat)}
    (hlen : v.length = s.columns) (h : order.Perm v.zipIdx) :
    let singles := side.singles (order.map fun x => (x.2 + 1, x.1))
    s.accepted singles = singles := by
  refine accepted_eq_self (side.clear_not_mem_singles _) ?_
  intro e he
  rw [BoundSide.singles, List.map_map, List.mem_map] at he
  obtain ⟨⟨x, i⟩, hx, rfl⟩ := he
  have hi : i < v.length := by
    rw [h.mem_iff, List.mk_mem_zipIdx_iff_getElem?] at hx
    exact (List.getElem?_eq_some_iff.1 hx).1
  have hfits := side.fits_single s.columns (i + 1) x
  rw [← Bool.decide_and, decide_eq_true (by omega)] at hfits
  exact hfits

/-- A whole vector of bounds is accepted and becomes the bounds of the model, and its entries one by
one, in any order of the columns, do the same; and bounds that are set one by one, in the model or
beside it, are set by the vector of the last values. -/
theorem bulk_eq_singles (n : Nat) (es : List ModelEdit) (side : BoundSide) :
    let s := (new n).editAll es
    (∀ v : List Float, v.length = s.columns →
      (s.edit (side.bulk v)).1 = true ∧ side.bounds (s.edit (side.bulk v)).2 = v ∧
      ∀ order : List (Float × Nat), order.Perm v.zipIdx →
        let singles := side.singles (order.map fun x => (x.2 + 1, x.1))
        s.editAll singles = (s.edit (side.bulk v)).2 ∧ s.accepted singles = singles) ∧
    ∀ pairs : List (Nat × Float),
      let v := lastValues (side.bounds s) pairs
      v.length = s.columns ∧ s.edit (side.bulk v) = (true, s.editAll (side.singles pairs)) := by
  intro s
  have wellFormed : s.WellFormed := (wellFormed_new n).editAll es
  have hbounds : (side.bounds s).length = s.columns := side.length_bounds wellFormed
  refine ⟨?_, ?_⟩
  · intro v hv
    rw [edit_bulk hv]
    refine ⟨rfl, BoundSide.bounds_withBounds, ?_⟩
    intro order horder
    refine ⟨?_, accepted_singles_of_perm hv horder⟩
    rw [editAll_singles wellFormed, lastValues_of_perm (hv.trans hbounds.symm) horder]
  · intro pairs v
    have hv : v.length = s.columns := (length_lastValues pairs).trans hbounds
    rw [edit_bulk hv, editAll_singles wellFormed]
    exact ⟨hv, rfl⟩

/-- Two bounds set from the last column to the first, and one that is set twice, beside a column
that there is none of. -/
theorem bounds_of_two_columns :
    let s := (new 2).editAll []
    s.editAll [.setUpperBound 2 Double.zero, .setUpperBound 1 Double.negZero] =
      (s.edit (.setUpperBounds [Double.negZero, Double.zero])).2 ∧
    s.edit (.setUpperBounds [Double.posInf, Double.negZero]) =
      (true, s.editAll [.setUpperBound 2 Double.zero, .setUpperBound 3 Double.zero,
        .setUpperBound 2 Double.negZero]) := by
  intro s
  obtain ⟨whole, last⟩ := bulk_eq_singles 2 [] .upper
  refine ⟨?_, ?_⟩
  · exact ((whole [Double.negZero, Double.zero] rfl).2.2 [(Double.zero, 1), (Double.negZero, 0)]
      (.swap ..)).1
  · exact (last [(2, Double.zero), (3, Double.zero), (2, Double.negZero)]).2

end ModelState

end LinProg
