import LinProg.LinearProgram
import LinProg.ModelEdit

/-!
# Well-formed models

The state of a model is well-formed if its vectors and rows have one entry for each column and its
binary columns are integer ones. Fresh models are, and edits keep them so, whether they are accepted
or not; a model also keeps its columns until it is cleared, and its rows all come from edits.

`LinearProgram.lookUp?` takes a program from a model by looking up the columns one by one, and rows
by the codes of their comparisons. Of a well-formed model it finds every column, and the program is
`LinearProgram.ofModel`.
-/

namespace LinProg

namespace Comparison

/-- Every code but the two of inequalities is taken for an equality. -/
def ofCode (code : Int) : Comparison :=
  if code = 1 then .lessOrEqual
  else if code = 2 then .greaterOrEqual
  else .equal

theorem ofCode_code (c : Comparison) : ofCode c.code = c := by
  cases c <;> rfl

theorem exists_eq_code_iff {n : Int} : (∃ c, n = code c) ↔ n ∈ [1, 2, 3] := by
  constructor
  · rintro ⟨c, rfl⟩
    cases c <;> decide
  · intro h
    simp only [List.mem_cons, List.not_mem_nil, or_false] at h
    obtain rfl | rfl | rfl := h
    · exact ⟨.lessOrEqual, rfl⟩
    · exact ⟨.greaterOrEqual, rfl⟩
    · exact ⟨.equal, rfl⟩

end Comparison

namespace ModelState

variable {s t : ModelState} {e : ModelEdit}

/-! ## Accepted edits -/

/-- What a change of a whole list comes to. -/
theorem ite_eq_some_iff {p : Prop} [Decidable p] {u : ModelState} :
    (if p then some u else none) = some t ↔ p ∧ t = u := by
  rw [Option.ite_none_right_eq_some, Option.some_inj, eq_comm (b := t)]

theorem addRow_eq_some_iff {coefficients : List Float} {code : Int} {rhs : Float} :
    s.addRow coefficients code rhs = some t ↔
      coefficients.length = s.columns ∧ ∃ comparison : Comparison, code = comparison.code ∧
        t = { s with rows := s.rows ++ [⟨coefficients, comparison, rhs⟩] } := by
  simp only [addRow, Option.ite_none_right_eq_some, Option.map_eq_some_iff,
    Comparison.ofCode?_eq_some_iff, eq_comm (b := t)]

/-- What a change of one column comes to. -/
theorem map_index?_eq_some_iff {column : Nat} {f : Nat → ModelState} :
    (s.index? column).map f = some t ↔ ∃ i < s.columns, column = i + 1 ∧ t = f i := by
  simp only [Option.map_eq_some_iff, index?_eq_some_iff, eq_comm (b := t), and_comm, and_left_comm]

theorem edit_accepted_iff : (s.edit e).1 = true ↔ ∃ t, s.edit? e = some t := by
  unfold edit
  cases s.edit? e <;> simp

theorem addRow_accepted_iff {coefficients : List Float} {code : Int} {rhs : Float} :
    (s.edit (.addRow coefficients code rhs)).1 = true ↔
      coefficients.length = s.columns ∧ code ∈ [1, 2, 3] := by
  rw [edit_accepted_iff, ← Comparison.exists_eq_code_iff]
  constructor
  · rintro ⟨t, ht⟩
    obtain ⟨hlen, comparison, hcode, -⟩ := addRow_eq_some_iff.1 ht
    exact ⟨hlen, comparison, hcode⟩
  · rintro ⟨hlen, comparison, hcode⟩
    exact ⟨_, addRow_eq_some_iff.2 ⟨hlen, comparison, hcode, rfl⟩⟩

/-! ## What edits preserve -/

structure WellFormed (s : ModelState) : Prop where
  objective : s.objective.length = s.columns
  rows : ∀ row ∈ s.rows, row.coefficients.length = s.columns
  lower : s.lower.length = s.columns
  upper : s.upper.length = s.columns
  integer : s.integer.length = s.columns
  binary : s.binary.length = s.columns
  integer_of_binary : ∀ i : Nat, s.binary[i]? = some true → s.integer[i]? = some true

theorem wellFormed_new (n : Nat) : (new n).WellFormed where
  objective := List.length_replicate
  rows := nofun
  lower := List.length_replicate
  upper := List.length_replicate
  integer := List.length_replicate
  binary := List.length_replicate
  integer_of_binary _ := id

namespace WellFormed

/-- Setting both flags of a column to the same value keeps the binary columns integer ones. -/
theorem integer_of_binary_set (h : s.WellFormed) (i : Nat) (flag : Bool) (j : Nat)
    (hj : (s.binary.set i flag)[j]? = some true) : (s.integer.set i flag)[j]? = some true := by
  rw [List.getElem?_set] at hj ⊢
  split
  next hij => rwa [if_pos hij, h.binary, ← h.integer] at hj
  next hij =>
    rw [if_neg hij] at hj
    exact h.integer_of_binary j hj

theorem setInteger (h : s.WellFormed) (i : Nat) (flag : Bool) :
    { s with
      integer := s.integer.set i flag
      binary := if flag then s.binary else s.binary.set i false }.WellFormed := by
  have hinteger := (List.length_set (i := i) (a := flag)).trans h.integer
  cases flag with
  | true =>
    -- The binary flags stay, and an integer flag that was set is still set.
    refine { h with integer := hinteger, integer_of_binary := ?_ }
    intro j hj
    have hold := h.integer_of_binary j hj
    rw [List.getElem?_set]
    split
    next hij => rw [if_pos (hij ▸ (List.getElem?_eq_some_iff.1 hold).1)]
    next => exact hold
  | false =>
    exact { h with
      integer := hinteger
      binary := List.length_set.trans h.binary
      integer_of_binary := h.integer_of_binary_set i false }

theorem setBinary (h : s.WellFormed) (i : Nat) (flag : Bool) :
    { s with
      binary := s.binary.set i flag
      integer := s.integer.set i flag
      lower := if flag then s.lower.set i Double.zero else s.lower
      upper := if flag then s.upper.set i (Double.signedOne false) else s.upper }.WellFormed := by
  have written {α : Type} {l : List α} {v : α} (hl : l.length = s.columns) :
      (if flag then l.set i v else l).length = s.columns := by
    split
    · exact List.length_set.trans hl
    · exact hl
  exact { h with
    binary := List.length_set.trans h.binary
    integer := List.length_set.trans h.integer
    lower := written h.lower
    upper := written h.upper
    integer_of_binary := h.integer_of_binary_set i flag }

end WellFormed

/-- What an accepted edit makes of a model: besides clearing it and adding a row there are edits
that leave its columns and rows alone. -/
inductive Edited (s : ModelState) : ModelEdit → ModelState → Prop where
  | clear : Edited s .clear (new 0)
  | addRow (row : Row) (fits : row.coefficients.length = s.columns) :
      Edited s (.addRow row.coefficients row.comparison.code row.rhs)
        { s with rows := s.rows ++ [row] }
  | adjust {e : ModelEdit} {t : ModelState} (noClear : e ≠ .clear) (columns : t.columns = s.columns)
      (rows : t.rows = s.rows) (wellFormed : s.WellFormed → t.WellFormed) : Edited s e t

theorem edited_of_edit? (he : s.edit? e = some t) : s.Edited e t := by
  cases e with
  | clear => cases he; exact .clear
  | addRow coefficients code rhs =>
    obtain ⟨fits, comparison, rfl, rfl⟩ := addRow_eq_some_iff.1 he
    exact .addRow ⟨coefficients, comparison, rhs⟩ fits
  -- The settings are no part of the invariant.
  | setScaling scaling => cases he; exact .adjust nofun rfl rfl fun h => { h with }
  | setVerbosity level => cases he; exact .adjust nofun rfl rfl fun h => { h with }
  | setTimeout seconds => cases he; exact .adjust nofun rfl rfl fun h => { h with }
  | setMaximize flag => cases he; exact .adjust nofun rfl rfl fun h => { h with }
  | recordOutcome outcome => cases he; exact .adjust nofun rfl rfl fun h => { h with }
  | setObjective coefficients =>
    obtain ⟨hlen, rfl⟩ := ite_eq_some_iff.1 he
    exact .adjust nofun rfl rfl fun h => { h with objective := hlen }
  | setLowerBounds bounds =>
    obtain ⟨hlen, rfl⟩ := ite_eq_some_iff.1 he
    exact .adjust nofun rfl rfl fun h => { h with lower := hlen }
  | setUpperBounds bounds =>
    obtain ⟨hlen, rfl⟩ := ite_eq_some_iff.1 he
    exact .adjust nofun rfl rfl fun h => { h with upper := hlen }
  | setLowerBound column value =>
    obtain ⟨i, -, -, rfl⟩ := map_index?_eq_some_iff.1 he
    exact .adjust nofun rfl rfl fun h => { h with lower := List.length_set.trans h.lower }
  | setUpperBound column value =>
    obtain ⟨i, -, -, rfl⟩ := map_index?_eq_some_iff.1 he
    exact .adjust nofun rfl rfl fun h => { h with upper := List.length_set.trans h.upper }
  | setInteger column flag =>
    obtain ⟨i, -, -, rfl⟩ := map_index?_eq_some_iff.1 he
    exact .adjust nofun rfl rfl fun h => h.setInteger i flag
  | setBinary column flag =>
    obtain ⟨i, -, -, rfl⟩ := map_index?_eq_some_iff.1 he
    exact .adjust nofun rfl rfl fun h => h.setBinary i flag

namespace WellFormed

theorem edited (h : s.WellFormed) (he : s.Edited e t) : t.WellFormed := by
  cases he with
  | clear => exact wellFormed_new 0
  | addRow row fits =>
    refine { h with rows := ?_ }
    intro r hr
    obtain hr | hr := List.mem_append.1 hr
    · exact h.rows r hr
    · obtain rfl := List.mem_singleton.1 hr
      exact fits
  | adjust noClear columns rows wellFormed => exact wellFormed h

theorem edit (h : s.WellFormed) (e : ModelEdit) : (s.edit e).2.WellFormed := by
  unfold ModelState.edit
  split
  next t he => exact h.edited (edited_of_edit? he)
  next => exact h

theorem editAll (h : s.WellFormed) (es : List ModelEdit) : (s.editAll es).WellFormed := by
  induction es generalizing s with
  | nil => exact h
  | cons e es ih => exact ih (h.edit e)

theorem isInteger_of_isBinary (h : s.WellFormed) {c : Nat} (hc : s.isBinary c = true) :
    s.isInteger c = true := by
  cases c with
  | zero => exact hc
  | succ i =>
    have getD_iff (flags : List Bool) : flags.getD i false = true ↔ flags[i]? = some true := by
      cases hi : flags[i]? <;> simp [List.getD_eq_getElem?_getD, hi]
    exact (getD_iff s.integer).2 (h.integer_of_binary i ((getD_iff s.binary).1 hc))

end WellFormed

/-! ## Columns and rows -/

theorem columns_edit (s : ModelState) (hclear : e ≠ .clear) : (s.edit e).2.columns = s.columns := by
  unfold edit
  split
  next t he =>
    cases edited_of_edit? he with
    | clear => exact absurd rfl hclear
    | addRow row fits => rfl
    | adjust noClear columns rows wellFormed => exact columns
  next => rfl

theorem columns_editAll {es : List ModelEdit} (s : ModelState) (hclear : .clear ∉ es) :
    (s.editAll es).columns = s.columns := by
  induction es generalizing s with
  | nil => rfl
  | cons e es ih =>
    have hes := List.ne_and_not_mem_of_not_mem_cons hclear
    exact (ih _ hes.2).trans (columns_edit s hes.1.symm)

/-- A model without columns never gets any. -/
theorem columns_editAll_of_zero (h : s.columns = 0) (es : List ModelEdit) :
    (s.editAll es).columns = 0 := by
  induction es generalizing s with
  | nil => exact h
  | cons e es ih =>
    apply ih
    by_cases he : e = .clear
    · rw [he]
      rfl
    · exact (columns_edit s he).trans h

theorem columns_editAll_of_clear {es : List ModelEdit} (s : ModelState) (h : .clear ∈ es) :
    (s.editAll es).columns = 0 := by
  obtain ⟨before, after, rfl⟩ := List.append_of_mem h
  rw [editAll_append]
  exact columns_editAll_of_zero rfl after

theorem mem_rows_edit {row : Row} (h : row ∈ (s.edit e).2.rows) :
    row ∈ s.rows ∨ e = .addRow row.coefficients row.comparison.code row.rhs := by
  unfold edit at h
  split at h
  next t he =>
    cases edited_of_edit? he with
    | clear => nomatch h
    | addRow added fits =>
      obtain h | h := List.mem_append.1 h
      · exact .inl h
      · obtain rfl := List.mem_singleton.1 h
        exact .inr rfl
    | adjust noClear columns rows wellFormed => exact .inl (rows ▸ h)
  next => exact .inl h

theorem mem_rows_editAll {row : Row} {es : List ModelEdit} (h : row ∈ (s.editAll es).rows) :
    row ∈ s.rows ∨ .addRow row.coefficients row.comparison.code row.rhs ∈ es := by
  induction es generalizing s with
  | nil => exact .inl h
  | cons e es ih =>
    obtain h | h := ih h
    · obtain h | rfl := mem_rows_edit h
      · exact .inl h
      · exact .inr List.mem_cons_self
    · exact .inr (List.mem_cons_of_mem _ h)

end ModelState

/-! ## Looking a program up -/

namespace LinearProgram

variable {s : ModelState}

/-- A column with its bounds and its mark, each at the same position of its list. -/
def columnAt? (s : ModelState) (i : Nat) : Option Column := do
  let lower ← s.lower[i]?
  let upper ← s.upper[i]?
  let integer ← s.integer[i]?
  return ⟨lower, upper, integer⟩

/-- The program that a model stands for, with terms for as many coefficients as there are columns;
there is none if a column is missing from one of the lists. -/
def lookUp? (s : ModelState) : Option LinearProgram := do
  let columns ← (List.range s.columns).mapM (columnAt? s)
  let termsOf (coefficients : List Float) := terms (coefficients.take columns.length)
  return {
    columns
    maximize := s.maximize
    objective := termsOf s.objective
    rows := s.rows.map fun row =>
      ⟨termsOf row.coefficients, .ofCode row.comparison.code, row.rhs⟩ }

theorem columnAt?_eq (s : ModelState) (i : Nat) :
    columnAt? s i = (columnsOf s.lower s.upper s.integer)[i]? := by
  rw [columnsOf, List.getElem?_map, List.zip, List.getElem?_zipWith, List.zip,
    List.getElem?_zipWith, columnAt?]
  cases s.lower[i]? <;> cases s.upper[i]? <;> cases s.integer[i]? <;> rfl

theorem length_columnsOf (h : s.WellFormed) :
    (columnsOf s.lower s.upper s.integer).length = s.columns := by
  rw [columnsOf, List.length_map, List.length_zip, List.length_zip, h.lower, h.upper, h.integer,
    Nat.min_self, Nat.min_self]

theorem mapM_range_getElem? {α : Type} (l : List α) {k : Nat} (hk : k ≤ l.length) :
    (List.range k).mapM (fun i => l[i]?) = some (l.take k) := by
  induction k with
  | zero => rfl
  | succ k ih =>
    have hget : l[k]? = some l[k] := List.getElem?_eq_getElem hk
    rw [List.range_succ, List.mapM_append, ih (Nat.le_of_succ_le hk), List.take_add_one,
      List.mapM_cons, hget]
    rfl

/-- No column of a well-formed model is missing, and no coefficient is left over. -/
theorem lookUp?_eq (h : s.WellFormed) : lookUp? s = some (.ofModel s) := by
  have hcolumns : (List.range s.columns).mapM (columnAt? s) =
      some (columnsOf s.lower s.upper s.integer) := by
    rw [funext (columnAt?_eq s), ← length_columnsOf h, mapM_range_getElem? _ (Nat.le_refl _),
      List.take_length]
  have hterms {coefficients : List Float} (hlen : coefficients.length = s.columns) :
      terms (coefficients.take s.columns) = terms coefficients := by
    rw [← hlen, List.take_length]
  have hrows : s.rows.map (fun row => (⟨terms (row.coefficients.take s.columns),
        .ofCode row.comparison.code, row.rhs⟩ : LinearProgram.Row)) =
      s.rows.map fun row => ⟨terms row.coefficients, row.comparison, row.rhs⟩ := by
    apply List.map_congr_left
    intro row hrow
    rw [hterms (h.rows row hrow), Comparison.ofCode_code]
  rw [lookUp?, hcolumns, ofModel, ← hterms h.objective, ← hrows, ← length_columnsOf h]
  rfl

end LinearProgram

namespace ModelState

/-- Whatever is done to a fresh model, it stays well-formed, keeps its columns until it is cleared,
takes rows from edits with a known code only, and every column that a program has is found. -/
theorem editAll_new_wellFormed (n : Nat) (es : List ModelEdit) :
    let s := (new n).editAll es
    s.WellFormed ∧
    (∀ c, s.isBinary c = true → s.isInteger c = true) ∧
    (.clear ∉ es → s.columns = n) ∧
    (.clear ∈ es → s.columns = 0) ∧
    (∀ row ∈ s.rows, row.comparison.code ∈ [1, 2, 3] ∧
      .addRow row.coefficients row.comparison.code row.rhs ∈ es ∧
      (row.comparison.code ≠ 1 → row.comparison.code ≠ 2 → row.comparison.code = 3)) ∧
    (∀ coefficients code rhs, (s.edit (.addRow coefficients code rhs)).1 = true ↔
      coefficients.length = s.columns ∧ code ∈ [1, 2, 3]) ∧
    LinearProgram.lookUp? s = some (.ofModel s) ∧
    (LinearProgram.ofModel s).columns.length = s.columns := by
  intro s
  have wellFormed : s.WellFormed := (wellFormed_new n).editAll es
  refine ⟨wellFormed, fun c => wellFormed.isInteger_of_isBinary, columns_editAll (new n),
    columns_editAll_of_clear (new n), ?_, fun _ _ _ => addRow_accepted_iff,
    LinearProgram.lookUp?_eq wellFormed, LinearProgram.length_columnsOf wellFormed⟩
  intro row hrow
  have hcode := Comparison.exists_eq_code_iff.1 ⟨row.comparison, rfl⟩
  refine ⟨hcode, (mem_rows_editAll hrow).resolve_left nofun, fun h1 h2 => ?_⟩
  simpa [h1, h2] using hcode

/-- A binary column, a row, and three edits that do not fit the model. -/
def mixedEdits : List ModelEdit :=
  [.setBinary 2 true, .addRow [Double.zero, Double.negZero] 3 Double.zero, .addRow [] 1 Double.zero,
    .addRow [Double.zero, Double.zero] 4 Double.zero, .setInteger 3 false]

theorem mixedEdits_wellFormed :
    .clear ∉ mixedEdits ∧ ((new 2).editAll mixedEdits).columns = 2 ∧
    ((new 2).editAll mixedEdits).isBinary 2 = true ∧
    ((new 2).editAll mixedEdits).isInteger 2 = true ∧
    ((new 2).editAll mixedEdits).rows = [⟨[Double.zero, Double.negZero], .equal, Double.zero⟩] ∧
    (LinearProgram.ofModel ((new 2).editAll mixedEdits)).columns.length = 2 := by
  have noClear : .clear ∉ mixedEdits := by simp [mixedEdits]
  obtain ⟨-, flags, columns, -, -, -, -, length⟩ := editAll_new_wellFormed 2 mixedEdits
  exact ⟨noClear, columns noClear, rfl, flags 2 rfl, rfl, length⟩

end ModelState

end LinProg
