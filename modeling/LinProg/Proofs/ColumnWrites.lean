import LinProg.Proofs.ModelInvariant

/-!
# What edits write

A setter is accepted just if its argument fits the number of columns, and a refused one leaves the
model as it is. What an accepted one writes is given by tables, one for each part of a model, and
nothing besides is changed (`Writes`, `SameSettings`). As the lists of a model have one entry for
each column, the entry read back is the last one that an accepted edit has written, or the one of
a fresh model (`lastWritten`).
-/

namespace LinProg

/-! ## Entries of a list, numbered from one -/

def atColumn? {α : Type} (l : List α) : Nat → Option α
  | 0 => none
  | i + 1 => l[i]?

section atColumn

variable {α : Type} {l : List α} {v : α} {c n : Nat}

theorem isSome_atColumn? : (atColumn? l c).isSome = (decide (1 ≤ c) && decide (c ≤ l.length)) := by
  cases c with
  | zero => rfl
  | succ i =>
    have hlt : (atColumn? l (i + 1)).isSome = true ↔ i < l.length := by simp [atColumn?]
    rw [Bool.eq_iff_iff, hlt, Bool.and_eq_true, decide_eq_true_iff, decide_eq_true_iff]
    omega

theorem atColumn?_set {i : Nat} (hi : i < l.length) :
    atColumn? (l.set i v) c = (if i + 1 = c then some v else none).or (atColumn? l c) := by
  cases c with
  | zero => rfl
  | succ j =>
    by_cases hij : i = j
    · simp [atColumn?, hij ▸ hi, hij]
    · simp [atColumn?, hij]

/-- A list of the same length leaves nothing of the old one. -/
theorem atColumn?_replace {k : List α} (h : k.length = l.length) :
    atColumn? k c = (atColumn? k c).or (atColumn? l c) := by
  cases hk : atColumn? k c with
  | some a => rfl
  | none =>
    have hl : (atColumn? l c).isSome = false := by
      rw [isSome_atColumn?, ← h, ← isSome_atColumn?, hk]
      rfl
    rw [Option.isSome_eq_false_iff, Option.isNone_iff_eq_none] at hl
    rw [hl]
    rfl

theorem atColumn?_replicate :
    atColumn? (List.replicate n v) c = if 1 ≤ c ∧ c ≤ n then some v else none := by
  cases c with
  | zero => rfl
  | succ i =>
    have hlt : i < n ↔ 1 ≤ i + 1 ∧ i + 1 ≤ n := by omega
    rw [atColumn?, List.getElem?_replicate]
    simp only [hlt]

theorem ext_atColumn? {k : List α} (h : ∀ c, atColumn? k c = atColumn? l c) : k = l :=
  List.ext_getElem? fun i => h (i + 1)

/-- The list with new entries at the columns that there is one for. -/
def overwrite (l : List α) (new : Nat → Option α) : List α :=
  l.mapIdx fun i x => (new (i + 1)).getD x

variable {f g : Nat → Option α}

@[simp] theorem length_overwrite : (overwrite l f).length = l.length :=
  List.length_mapIdx

theorem overwrite_eq_self (h : ∀ c, 1 ≤ c → c ≤ l.length → f c = none) : overwrite l f = l := by
  rw [overwrite, List.mapIdx_eq_iff]
  intro i
  by_cases hi : i < l.length
  · simp [hi, h (i + 1) (by omega) (by omega)]
  · simp [hi]

theorem overwrite_overwrite :
    overwrite (overwrite l f) g = overwrite l fun c => (g c).or (f c) := by
  simp only [overwrite, List.mapIdx_mapIdx, Function.comp_def, Option.getD_or]

theorem set_eq_overwrite (i : Nat) :
    l.set i v = overwrite l fun c => if i + 1 = c then some v else none := by
  symm
  rw [overwrite, List.mapIdx_eq_iff]
  intro j
  rw [List.getElem?_set]
  by_cases hij : i = j
  · subst hij
    by_cases hi : i < l.length <;> simp [hi]
  · simp [hij]

/-- A column beside the list is not written. -/
theorem overwrite_of_outside (h : c = 0 ∨ l.length < c) :
    overwrite l (fun d => if c = d then some v else none) = l :=
  overwrite_eq_self fun d hd hd' => if_neg (by omega)

/-- With an entry for each column nothing is left of the old list. -/
theorem overwrite_atColumn? {k : List α} (h : k.length = l.length) :
    overwrite l (atColumn? k) = k := by
  rw [overwrite, List.mapIdx_eq_iff]
  intro i
  by_cases hi : i < l.length
  · simp [atColumn?, hi, h]
  · simp [hi, h]

end atColumn

/-! ## The tables -/

namespace ModelEdit

def isSetter : ModelEdit → Bool
  | .setObjective _ | .addRow _ _ _ | .setLowerBounds _ | .setUpperBounds _ | .setLowerBound _ _
  | .setUpperBound _ _ | .setInteger _ _ | .setBinary _ _ => true
  | _ => false

/-- The column that a setter of a single column is about. -/
def column? : ModelEdit → Option Nat
  | .setLowerBound column _ | .setUpperBound column _ | .setInteger column _
  | .setBinary column _ => some column
  | _ => none

/-- Vectors have one entry for each of `n` columns, rows have a known code, and single columns are
numbered from one to `n`. -/
def fits (n : Nat) : ModelEdit → Bool
  | .setObjective v | .setLowerBounds v | .setUpperBounds v => v.length == n
  | .addRow v code _ => v.length == n && [1, 2, 3].contains code
  | .setLowerBound c _ | .setUpperBound c _ | .setInteger c _ | .setBinary c _ => 1 ≤ c && c ≤ n
  | _ => true

def objective? : ModelEdit → Option (List Float)
  | .setObjective coefficients => some coefficients
  | _ => none

def addedRows : ModelEdit → List Row
  | .addRow coefficients code rhs => [⟨coefficients, .ofCode code, rhs⟩]
  | _ => []

def lower? (c : Nat) : ModelEdit → Option Float
  | .setLowerBounds bounds => atColumn? bounds c
  | .setLowerBound column value => if column = c then some value else none
  | .setBinary column true => if column = c then some Double.zero else none
  | _ => none

def upper? (c : Nat) : ModelEdit → Option Float
  | .setUpperBounds bounds => atColumn? bounds c
  | .setUpperBound column value => if column = c then some value else none
  | .setBinary column true => if column = c then some (Double.signedOne false) else none
  | _ => none

def integer? (c : Nat) : ModelEdit → Option Bool
  | .setInteger column flag | .setBinary column flag => if column = c then some flag else none
  | _ => none

/-- A column that is made continuous is no longer binary either. -/
def binary? (c : Nat) : ModelEdit → Option Bool
  | .setInteger column false => if column = c then some false else none
  | .setBinary column flag => if column = c then some flag else none
  | _ => none

end ModelEdit

namespace ModelState

open ModelEdit (lower? upper? integer? binary?)

variable {s t u : ModelState} {e : ModelEdit} {es : List ModelEdit}

/-- What the accepted edit `e` makes of `s`: the entries that it writes are new, the rows that it
adds are the last ones, and every other entry and row is the old one. -/
structure Writes (s : ModelState) (e : ModelEdit) (t : ModelState) : Prop where
  columns : t.columns = s.columns := by rfl
  objective : t.objective = e.objective?.getD s.objective := by rfl
  rows : t.rows = s.rows ++ e.addedRows := by exact (List.append_nil _).symm
  lower : ∀ c, atColumn? t.lower c = (e.lower? c).or (atColumn? s.lower c) := by exact fun _ => rfl
  upper : ∀ c, atColumn? t.upper c = (e.upper? c).or (atColumn? s.upper c) := by exact fun _ => rfl
  integer : ∀ c, atColumn? t.integer c = (e.integer? c).or (atColumn? s.integer c) := by
    exact fun _ => rfl
  binary : ∀ c, atColumn? t.binary c = (e.binary? c).or (atColumn? s.binary c) := by
    exact fun _ => rfl

structure SameSettings (s t : ModelState) : Prop where
  maximize : t.maximize = s.maximize := by rfl
  scaling : t.scaling = s.scaling := by rfl
  verbosity : t.verbosity = s.verbosity := by rfl
  timeout : t.timeout = s.timeout := by rfl
  outcome : t.outcome = s.outcome := by rfl

/-- The tables and the settings leave no part of the state open. -/
theorem Writes.unique (ht : s.Writes e t) (hst : s.SameSettings t) (hu : s.Writes e u)
    (hsu : s.SameSettings u) : t = u := by
  cases t
  cases u
  rw [mk.injEq]
  exact ⟨ht.columns.trans hu.columns.symm, ht.objective.trans hu.objective.symm,
    hst.maximize.trans hsu.maximize.symm, ht.rows.trans hu.rows.symm,
    ext_atColumn? fun c => (ht.lower c).trans (hu.lower c).symm,
    ext_atColumn? fun c => (ht.upper c).trans (hu.upper c).symm,
    ext_atColumn? fun c => (ht.integer c).trans (hu.integer c).symm,
    ext_atColumn? fun c => (ht.binary c).trans (hu.binary c).symm,
    hst.scaling.trans hsu.scaling.symm, hst.verbosity.trans hsu.verbosity.symm,
    hst.timeout.trans hsu.timeout.symm, hst.outcome.trans hsu.outcome.symm⟩

/-! ## One edit -/

theorem edit_fst_of_ite {p : Prop} [Decidable p] (h : s.edit? e = if p then some u else none) :
    (s.edit e).1 = decide p := by
  rw [edit, h]
  by_cases hp : p <;> simp [hp]

theorem edit_fst_of_index? {column : Nat} {f : Nat → ModelState}
    (h : s.edit? e = (s.index? column).map f) :
    (s.edit e).1 = (decide (1 ≤ column) && decide (column ≤ s.columns)) := by
  rw [edit, h, ← Bool.decide_and, Bool.eq_iff_iff, decide_eq_true_iff]
  cases hi : s.index? column with
  | none =>
    have hout := index?_eq_none_iff.1 hi
    simp
    omega
  | some i =>
    obtain ⟨rfl, hin⟩ := index?_eq_some_iff.1 hi
    simp
    omega

/-- A change of one column makes nothing of a model that does not have it. -/
theorem edit_snd_of_index? {column : Nat} {f : Nat → ModelState}
    (h : s.edit? e = (s.index? column).map f) (inside : ∀ i, column = i + 1 → f i = t)
    (outside : column = 0 ∨ s.columns < column → s = t) : (s.edit e).2 = t := by
  rw [edit, h]
  cases hi : s.index? column with
  | none => exact outside (index?_eq_none_iff.1 hi)
  | some i => exact inside i (index?_eq_some_iff.1 hi).1

theorem edit_fst (s : ModelState) (e : ModelEdit) : (s.edit e).1 = e.fits s.columns := by
  cases e with
  | setObjective v => exact edit_fst_of_ite rfl
  | setLowerBounds v => exact edit_fst_of_ite rfl
  | setUpperBounds v => exact edit_fst_of_ite rfl
  | addRow v code rhs =>
    rw [Bool.eq_iff_iff]
    exact addRow_accepted_iff.trans (by simp [ModelEdit.fits])
  | setLowerBound column value => exact edit_fst_of_index? rfl
  | setUpperBound column value => exact edit_fst_of_index? rfl
  | setInteger column flag => exact edit_fst_of_index? rfl
  | setBinary column flag => exact edit_fst_of_index? rfl
  | _ => rfl

theorem writes_of_edit? (h : s.WellFormed) (hclear : e ≠ .clear) (he : s.edit? e = some t) :
    s.Writes e t := by
  cases e with
  | clear => exact absurd rfl hclear
  | setScaling | setVerbosity | setTimeout | setMaximize | recordOutcome => cases he; exact {}
  | setObjective coefficients =>
    obtain ⟨-, rfl⟩ := ite_eq_some_iff.1 he
    exact {}
  | addRow coefficients code rhs =>
    obtain ⟨-, comparison, rfl, rfl⟩ := addRow_eq_some_iff.1 he
    refine { rows := ?_ }
    rw [ModelEdit.addedRows, Comparison.ofCode_code]
  | setLowerBounds bounds =>
    obtain ⟨hlen, rfl⟩ := ite_eq_some_iff.1 he
    exact { lower := fun c => atColumn?_replace (hlen.trans h.lower.symm) }
  | setUpperBounds bounds =>
    obtain ⟨hlen, rfl⟩ := ite_eq_some_iff.1 he
    exact { upper := fun c => atColumn?_replace (hlen.trans h.upper.symm) }
  | setLowerBound column value =>
    obtain ⟨i, hi, rfl, rfl⟩ := map_index?_eq_some_iff.1 he
    exact { lower := fun c => atColumn?_set (h.lower ▸ hi) }
  | setUpperBound column value =>
    obtain ⟨i, hi, rfl, rfl⟩ := map_index?_eq_some_iff.1 he
    exact { upper := fun c => atColumn?_set (h.upper ▸ hi) }
  | setInteger column flag =>
    obtain ⟨i, hi, rfl, rfl⟩ := map_index?_eq_some_iff.1 he
    cases flag with
    | true => exact { integer := fun c => atColumn?_set (h.integer ▸ hi) }
    | false => exact {
        integer := fun c => atColumn?_set (h.integer ▸ hi)
        binary := fun c => atColumn?_set (h.binary ▸ hi) }
  | setBinary column flag =>
    obtain ⟨i, hi, rfl, rfl⟩ := map_index?_eq_some_iff.1 he
    have hflags {l : List Bool} (hl : l.length = s.columns) (c : Nat) :=
      atColumn?_set (v := flag) (c := c) (hl ▸ hi)
    cases flag with
    | true => exact {
        lower := fun c => atColumn?_set (h.lower ▸ hi)
        upper := fun c => atColumn?_set (h.upper ▸ hi)
        integer := hflags h.integer
        binary := hflags h.binary }
    | false => exact { integer := hflags h.integer, binary := hflags h.binary }

theorem sameSettings_of_edit? (hsetter : e.isSetter = true) (he : s.edit? e = some t) :
    s.SameSettings t := by
  cases e with
  | setObjective | setLowerBounds | setUpperBounds =>
    obtain ⟨-, rfl⟩ := ite_eq_some_iff.1 he
    exact {}
  | addRow =>
    obtain ⟨-, comparison, -, rfl⟩ := addRow_eq_some_iff.1 he
    exact {}
  | setLowerBound | setUpperBound | setInteger | setBinary =>
    obtain ⟨i, -, -, rfl⟩ := map_index?_eq_some_iff.1 he
    exact {}
  | _ => cases hsetter

theorem edit?_of_accepted (he : (s.edit e).1 = true) : s.edit? e = some (s.edit e).2 := by
  obtain ⟨t, ht⟩ := edit_accepted_iff.1 he
  rw [edit, ht]

theorem writes_edit (h : s.WellFormed) (hclear : e ≠ .clear) (he : (s.edit e).1 = true) :
    s.Writes e (s.edit e).2 :=
  writes_of_edit? h hclear (edit?_of_accepted he)

/-! ## Many edits -/

/-- The edits that are accepted when all are made one after the other. -/
def accepted (s : ModelState) : List ModelEdit → List ModelEdit
  | [] => []
  | e :: es => (if (s.edit e).1 then [e] else []) ++ (s.edit e).2.accepted es

theorem accepted_append (s : ModelState) (es fs : List ModelEdit) :
    s.accepted (es ++ fs) = s.accepted es ++ (s.editAll es).accepted fs := by
  induction es generalizing s with
  | nil => rfl
  | cons e es ih =>
    rw [List.cons_append, accepted, ih, ← List.append_assoc]
    rfl

/-- Edits that fit the model are all accepted. -/
theorem accepted_eq_self (hclear : .clear ∉ es)
    (hfits : ∀ e ∈ es, e.fits s.columns = true) : s.accepted es = es := by
  induction es generalizing s with
  | nil => rfl
  | cons e es ih =>
    have hes := List.ne_and_not_mem_of_not_mem_cons hclear
    obtain ⟨hfit, hrest⟩ := List.forall_mem_cons.1 hfits
    rw [← columns_edit s hes.1.symm] at hrest
    rw [accepted, edit_fst, hfit, ih hes.2 hrest]
    rfl

section lastWritten

variable {α : Type} (w : ModelEdit → Option α)

/-- What the last of the accepted edits that write has written. -/
def lastWritten (s : ModelState) (es : List ModelEdit) : Option α :=
  (s.accepted es).reverse.findSome? w

theorem lastWritten_append (s : ModelState) (es fs : List ModelEdit) :
    lastWritten w s (es ++ fs) = (lastWritten w (s.editAll es) fs).or (lastWritten w s es) := by
  rw [lastWritten, accepted_append, List.reverse_append, List.findSome?_append]
  rfl

theorem lastWritten_singleton (s : ModelState) (e : ModelEdit) :
    lastWritten w s [e] = if (s.edit e).1 then w e else none := by
  rw [lastWritten, accepted, accepted, List.append_nil]
  split <;> simp

variable {w}

/-- An accepted edit that writes the last value, and after it none that writes. -/
theorem exists_of_lastWritten {a : α} (h : lastWritten w s es = some a) :
    ∃ before e after, es = before ++ e :: after ∧ w e = some a ∧
      ((s.editAll before).edit e).1 = true ∧
      lastWritten w ((s.editAll before).edit e).2 after = none := by
  induction es generalizing s with
  | nil => cases h
  | cons e es ih =>
    rw [← List.singleton_append, lastWritten_append, lastWritten_singleton,
      Option.or_eq_some_iff] at h
    obtain hlater | ⟨hnone, hnow⟩ := h
    · obtain ⟨before, f, after, rfl, hf⟩ := ih hlater
      exact ⟨e :: before, f, after, rfl, hf⟩
    · rw [Option.ite_none_right_eq_some] at hnow
      exact ⟨[], e, es, rfl, hnow.2, hnow.1, hnone⟩

variable (read : ModelState → Option α)

/-- An entry that each accepted edit changes as its table says is the last one written. -/
theorem read_editAll (hread : ∀ {s e t}, s.Writes e t → read t = (w e).or (read s))
    (h : s.WellFormed) (hclear : .clear ∉ es) :
    read (s.editAll es) = (lastWritten w s es).or (read s) := by
  induction es generalizing s with
  | nil => rfl
  | cons e es ih =>
    have hes := List.ne_and_not_mem_of_not_mem_cons hclear
    have hstep : read (s.edit e).2 = (lastWritten w s [e]).or (read s) := by
      rw [lastWritten_singleton]
      by_cases he : (s.edit e).1 = true
      · rw [if_pos he, hread (writes_edit h hes.1.symm he)]
      · rw [if_neg he, edit_eq_of_refused (Bool.eq_false_iff.2 he), Option.none_or]
    calc read ((s.edit e).2.editAll es)
        = (lastWritten w (s.edit e).2 es).or (read (s.edit e).2) := ih (h.edit e) hes.2
      _ = ((lastWritten w (s.edit e).2 es).or (lastWritten w s [e])).or (read s) := by
        rw [hstep, Option.or_assoc]
      _ = (lastWritten w s ([e] ++ es)).or (read s) := by
        rw [lastWritten_append]
        rfl

/-- What an accepted edit has written is read until it is written over. -/
theorem read_editAll_cons {v : α} (hread : ∀ {s e t}, s.Writes e t → read t = (w e).or (read s))
    (h : s.WellFormed) (hclear : .clear ∉ e :: es) (he : (s.edit e).1 = true)
    (hw : w e = some v) :
    read (s.editAll (e :: es)) = some ((lastWritten w (s.edit e).2 es).getD v) := by
  have hes := List.ne_and_not_mem_of_not_mem_cons hclear
  have hlater := read_editAll read hread (h.edit e) hes.2
  rw [hread (writes_edit h hes.1.symm he), hw, Option.some_or, Option.or_some] at hlater
  exact hlater

/-- A list with one entry for each column, filled with `d` in a fresh model. -/
theorem atColumn?_editAll_new {l : ModelState → List α} {w : Nat → ModelEdit → Option α} {d : α}
    (hlength : ∀ {s}, s.WellFormed → (l s).length = s.columns)
    (hnew : ∀ n, l (new n) = List.replicate n d)
    (hwrites : ∀ {s e t}, s.Writes e t → ∀ c, atColumn? (l t) c = (w c e).or (atColumn? (l s) c))
    (n : Nat) (es : List ModelEdit) (c : Nat) :
    atColumn? (l ((new n).editAll es)) c =
      if 1 ≤ c ∧ c ≤ ((new n).editAll es).columns then
        some ((lastWritten (w c) (new n) es).getD d)
      else none := by
  have hisSome := isSome_atColumn? (l := l ((new n).editAll es)) (c := c)
  rw [hlength ((wellFormed_new n).editAll es), ← Bool.decide_and] at hisSome
  split
  next hc =>
    -- A model that has been cleared has no column.
    have hclear : .clear ∉ es := by
      intro hmem
      have hzero := columns_editAll_of_clear (new n) hmem
      omega
    have hcolumns : ((new n).editAll es).columns = n := columns_editAll (new n) hclear
    rw [hcolumns] at hc
    rw [read_editAll (fun s => atColumn? (l s) c) (fun h => hwrites h c)
      (wellFormed_new n) hclear, hnew, atColumn?_replicate, if_pos hc, Option.or_some]
  next hc =>
    rwa [decide_eq_false hc, Option.isSome_eq_false_iff, Option.isNone_iff_eq_none] at hisSome

end lastWritten

/-! ## Reading a column -/

theorem lowerBound?_eq (s : ModelState) (c : Nat) : s.lowerBound? c = atColumn? s.lower c := by
  cases c <;> rfl

theorem upperBound?_eq (s : ModelState) (c : Nat) : s.upperBound? c = atColumn? s.upper c := by
  cases c <;> rfl

theorem isInteger_eq (s : ModelState) (c : Nat) :
    s.isInteger c = (atColumn? s.integer c).getD false := by
  cases c with
  | zero => rfl
  | succ i => exact List.getD_eq_getElem?_getD ..

theorem isBinary_eq (s : ModelState) (c : Nat) :
    s.isBinary c = (atColumn? s.binary c).getD false := by
  cases c with
  | zero => rfl
  | succ i => exact List.getD_eq_getElem?_getD ..

theorem isInteger_iff {c : Nat} : s.isInteger c = true ↔ atColumn? s.integer c = some true := by
  simp [isInteger_eq, Option.getD_eq_iff]

theorem isBinary_iff {c : Nat} : s.isBinary c = true ↔ atColumn? s.binary c = some true := by
  simp [isBinary_eq, Option.getD_eq_iff]

/-- A setter of a single column is accepted just if the column has bounds. -/
theorem edit_fst_of_column? {c : Nat} (h : s.WellFormed) (he : e.column? = some c) :
    (s.edit e).1 = (s.lowerBound? c).isSome ∧ (s.edit e).1 = (s.upperBound? c).isSome := by
  have hfits : (s.edit e).1 = (decide (1 ≤ c) && decide (c ≤ s.columns)) := by
    rw [edit_fst]
    cases e <;> cases he <;> rfl
  rw [hfits, lowerBound?_eq, upperBound?_eq, isSome_atColumn?, isSome_atColumn?, h.lower, h.upper]
  exact ⟨rfl, rfl⟩

/-- Every setter is accepted just if it fits; refused, it changes nothing, and accepted, it makes
the changes of the tables and no others. Columns that setters accept are those with bounds, and what
is read of them is what was last written there. -/
theorem setters_agree_with_getters (n : Nat) (es : List ModelEdit) :
    let s := (new n).editAll es
    (∀ e, e.isSetter = true →
      (s.edit e).1 = e.fits s.columns ∧
      ((s.edit e).1 = false → (s.edit e).2 = s) ∧
      ((s.edit e).1 = true → ∀ t, t = (s.edit e).2 ↔ s.Writes e t ∧ s.SameSettings t)) ∧
    ∀ c,
      (∀ e, e.column? = some c →
        (s.edit e).1 = (s.lowerBound? c).isSome ∧ (s.edit e).1 = (s.upperBound? c).isSome) ∧
      if 1 ≤ c ∧ c ≤ s.columns then
        s.lowerBound? c = some ((lastWritten (lower? c) (new n) es).getD Double.zero) ∧
        s.upperBound? c = some ((lastWritten (upper? c) (new n) es).getD Double.posInf) ∧
        s.isInteger c = (lastWritten (integer? c) (new n) es).getD false ∧
        s.isBinary c = (lastWritten (binary? c) (new n) es).getD false
      else
        s.lowerBound? c = none ∧ s.upperBound? c = none ∧
        s.isInteger c = false ∧ s.isBinary c = false := by
  intro s
  have wellFormed : s.WellFormed := (wellFormed_new n).editAll es
  refine ⟨?_, ?_⟩
  · intro e hsetter
    refine ⟨edit_fst s e, edit_eq_of_refused, ?_⟩
    intro he t
    have hclear : e ≠ .clear := by
      rintro rfl
      cases hsetter
    have hwrites := writes_edit wellFormed hclear he
    have hsettings := sameSettings_of_edit? hsetter (edit?_of_accepted he)
    constructor
    · rintro rfl
      exact ⟨hwrites, hsettings⟩
    · rintro ⟨hwrites', hsettings'⟩
      exact hwrites'.unique hsettings' hwrites hsettings
  · intro c
    have hlower := atColumn?_editAll_new WellFormed.lower (fun _ => rfl) Writes.lower n es c
    have hupper := atColumn?_editAll_new WellFormed.upper (fun _ => rfl) Writes.upper n es c
    have hinteger := atColumn?_editAll_new WellFormed.integer (fun _ => rfl) Writes.integer n es c
    have hbinary := atColumn?_editAll_new WellFormed.binary (fun _ => rfl) Writes.binary n es c
    refine ⟨fun e => edit_fst_of_column? wellFormed, ?_⟩
    rw [lowerBound?_eq, upperBound?_eq, isInteger_eq, isBinary_eq, hlower, hupper, hinteger,
      hbinary]
    split <;> simp

/-- A bound for each column, a binary mark that is taken away, and a column that is not there. -/
def columnEdits : List ModelEdit :=
  [.setUpperBounds [Double.zero, Double.posInf], .setBinary 2 true, .setInteger 2 false,
    .setUpperBound 3 Double.zero]

/-- The bounds of the mark outlast it, and no refused bound is read. -/
theorem columnEdits_read :
    let s := (new 2).editAll columnEdits
    s.lowerBound? 2 = some Double.zero ∧ s.upperBound? 2 = some (Double.signedOne false) ∧
    s.isInteger 2 = false ∧ s.isBinary 2 = false ∧ s.upperBound? 3 = none ∧
    (s.edit (.setUpperBound 3 Double.zero)).1 = false := by
  intro s
  have agree := (setters_agree_with_getters 2 columnEdits).2
  obtain ⟨hlower, hupper, hinteger, hbinary⟩ := (agree 2).2
  obtain ⟨-, houtside, -, -⟩ := (agree 3).2
  have hrefused := ((agree 3).1 (.setUpperBound 3 Double.zero) rfl).2
  rw [houtside] at hrefused
  exact ⟨hlower, hupper, hinteger, hbinary, houtside, hrefused⟩

end ModelState

end LinProg
