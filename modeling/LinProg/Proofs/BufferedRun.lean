import LinProg.BufferedEngine
import LinProg.Proofs.BoundSide
import LinProg.Proofs.Conversation
import LinProg.Proofs.Path

/-!
# Building in a buffered model

What a buffered model does with a call is what the change that the call asks for does with its state
(`Call.edit?`, `answer_of_edit?`). `Builds b t cs u` says that a model in state `t` accepts the calls
`cs` one after another and is in state `u` afterwards. Each kind of call has its own lemma, and
marking columns one by one comes to writing one value at many positions (`setAll`).

`Backend.inputs` are the states that a backend is given while the calls are made: only solving the
model gives it one.
-/

namespace LinProg

/-- The list with one value written at some positions. -/
def setAll {α : Type} (v : α) (l : List α) (is : List Nat) : List α :=
  is.foldl (fun l i => l.set i v) l

section SetAll

variable {α : Type} {v : α} {l : List α} {is : List Nat}

@[simp] theorem setAll_nil : setAll v l [] = l := rfl

@[simp] theorem setAll_cons {i : Nat} : setAll v l (i :: is) = setAll v (l.set i v) is := rfl

theorem getElem?_setAll {j : Nat} :
    (setAll v l is)[j]? = if j ∈ is ∧ j < l.length then some v else l[j]? := by
  induction is generalizing l with
  | nil => simp
  | cons i is ih =>
    rw [setAll_cons, ih, List.length_set, List.getElem?_set]
    by_cases hj : j < l.length
    · by_cases hi : i = j
      · simp [hi, hj]
      · simp [hi, hj, Ne.symm hi]
    · simp [hj]
      omega

theorem setAll_filter_range {n : Nat} (h : l.length = n) (P : Nat → Bool) (d : α) :
    setAll v l ((List.range n).filter P) =
      (List.range n).map fun i => if P i then v else l.getD i d := by
  apply List.ext_getElem?
  intro j
  rw [getElem?_setAll, List.getElem?_map]
  by_cases hj : j < n
  · have hl : l[j]? = some (l.getD j d) := by
      rw [List.getD_eq_getElem?_getD, List.getElem?_eq_getElem (by omega), Option.getD_some]
    rw [List.getElem?_range hj, hl]
    cases hP : P j with
    | true => simp [hP, hj, h]
    | false => simp [hP]
  · rw [List.getElem?_eq_none (l := List.range n) (by simpa using hj)]
    simp [h, hj]

end SetAll

/-- The change that a call asks for; none if it reads only, or if the backend decides what it
changes. -/
def Call.edit? : Call → Option ModelEdit
  | .setScaling s => some (.setScaling s)
  | .setVerbosity level => some (.setVerbosity level)
  | .setTimeout seconds => some (.setTimeout seconds)
  | .setObjective coefficients => some (.setObjective coefficients)
  | .setDirection direction => some (.setMaximize (direction == .maximize))
  | .addRow coefficients code rhs => some (.addRow coefficients code rhs)
  | .setLowerBounds bounds => some (.setLowerBounds bounds)
  | .setUpperBounds bounds => some (.setUpperBounds bounds)
  | .setLowerBound column value => some (.setLowerBound column value)
  | .setUpperBound column value => some (.setUpperBound column value)
  | .setInteger column flag => some (.setInteger column flag)
  | .setBinary column flag => some (.setBinary column flag)
  | .release => some .clear
  | _ => none

theorem BoundSide.edit?_call {side : BoundSide} {bounds : List Float} :
    (side.call bounds).edit? = some (side.bulk bounds) := by
  cases side <;> rfl

/-- A call that asks for no change is not refused. -/
theorem Call.accepted_of_edit? {c : Call} (h : c.edit? = none) (r : c.Reply) :
    c.accepted r = true := by
  cases c <;> first | rfl | cases h

namespace ModelState

variable {b : Backend} {t u v : ModelState} {cs ds : List Call}

/-- A call is accepted just if the change it asks for is, and leaves what the change does. -/
theorem answer_of_edit? {c : Call} {e : ModelEdit} (h : c.edit? = some e) (b : Backend)
    (t : ModelState) :
    c.accepted (t.answer b c).1 = (t.edit e).1 ∧ (t.answer b c).2 = (t.edit e).2 := by
  cases c <;> cases h <;> exact ⟨rfl, rfl⟩

/-- A call leaves a model as it is or changes it by an edit, and only the release clears it. -/
theorem answer_eq_or_edit (b : Backend) (t : ModelState) (c : Call) :
    (t.answer b c).2 = t ∨
      ∃ e : ModelEdit, (t.answer b c).2 = (t.edit e).2 ∧ (e = .clear → c = .release) := by
  cases c with
  | setScaling | setVerbosity | setTimeout | setObjective | setDirection | addRow | setLowerBounds
  | setUpperBounds | setLowerBound | setUpperBound | setInteger | setBinary | solve =>
    exact .inr ⟨_, rfl, nofun⟩
  | release => exact .inr ⟨.clear, rfl, fun _ => rfl⟩
  | _ => exact .inl rfl

def Builds (b : Backend) (t : ModelState) (cs : List Call) (u : ModelState) : Prop :=
  ∃ xs, Accepts cs xs ∧ (Engine.buffered b).Conducts t xs u

theorem Builds.nil : Builds b t [] t := ⟨[], .nil, rfl⟩

theorem Builds.append (h : Builds b t cs u) (h' : Builds b u ds v) : Builds b t (cs ++ ds) v := by
  obtain ⟨xs, hx, htu⟩ := h
  obtain ⟨ys, hy, huv⟩ := h'
  exact ⟨xs ++ ys, hx.append hy, Engine.conducts_append.2 ⟨u, htu, huv⟩⟩

theorem Builds.cons {c : Call} (h : c.accepted (t.answer b c).1 = true)
    (rest : Builds b (t.answer b c).2 cs u) : Builds b t (c :: cs) u := by
  obtain ⟨xs, hx, htu⟩ := rest
  exact ⟨⟨c, _⟩ :: xs, .cons h hx, rfl, htu⟩

theorem builds_of_edit? {c : Call} {e : ModelEdit} (hc : c.edit? = some e)
    (he : t.edit? e = some u) : Builds b t [c] u := by
  obtain ⟨reply, state⟩ := answer_of_edit? hc b t
  have hedit : t.edit e = (true, u) := by simp only [edit, he]
  rw [hedit] at reply state
  exact .cons reply (by rw [state]; exact .nil)

theorem builds_setObjective {coefficients : List Float} (h : coefficients.length = t.columns) :
    Builds b t [.setObjective coefficients] { t with objective := coefficients } :=
  builds_of_edit? (e := .setObjective coefficients) rfl (if_pos h)

theorem builds_addRow {c : Constraint} (h : c.coefficients.length = t.columns) :
    Builds b t [.addRow c.coefficients c.comparison.code c.value]
      { t with rows := t.rows ++ [⟨c.coefficients, c.comparison, c.value⟩] } := by
  apply builds_of_edit? (e := .addRow c.coefficients c.comparison.code c.value) rfl
  rw [edit?, addRow, if_pos h, Comparison.ofCode?_code]
  rfl

theorem builds_rows {cs : List Constraint} (h : ∀ c ∈ cs, c.coefficients.length = t.columns) :
    Builds b t (cs.map fun c => .addRow c.coefficients c.comparison.code c.value)
      { t with rows := t.rows ++ cs.map fun c => ⟨c.coefficients, c.comparison, c.value⟩ } := by
  induction cs generalizing t with
  | nil => simpa using Builds.nil
  | cons c cs ih =>
    have first : Builds b t _ _ := builds_addRow (h c List.mem_cons_self)
    have rest := ih (t := { t with rows := t.rows ++ [⟨c.coefficients, c.comparison, c.value⟩] })
      fun c' hc' => h c' (List.mem_cons_of_mem _ hc')
    simpa using first.append rest

theorem builds_setBounds (side : BoundSide) {bounds : List Float}
    (h : bounds = [] ∨ bounds.length = t.columns) :
    Builds b t (if bounds = [] then [] else [side.call bounds])
      (side.withBounds t (if bounds = [] then side.bounds t else bounds)) := by
  by_cases hb : bounds = []
  · rw [if_pos hb, if_pos hb, BoundSide.withBounds_bounds]
    exact .nil
  · rw [if_neg hb, if_neg hb]
    apply builds_of_edit? side.edit?_call
    rw [side.edit?_bulk, if_pos (h.resolve_left hb)]

theorem builds_setInteger {i : Nat} (h : i < t.columns) :
    Builds b t [.setInteger (i + 1) true] { t with integer := t.integer.set i true } := by
  apply builds_of_edit? (e := .setInteger (i + 1) true) rfl
  rw [edit?, setInteger, index?_eq_some_iff.2 ⟨rfl, h⟩]
  rfl

theorem builds_setBinary {i : Nat} (h : i < t.columns) :
    Builds b t [.setBinary (i + 1) true]
      { t with
        binary := t.binary.set i true
        integer := t.integer.set i true
        lower := t.lower.set i Double.zero
        upper := t.upper.set i (Double.signedOne false) } := by
  apply builds_of_edit? (e := .setBinary (i + 1) true) rfl
  rw [edit?, setBinary, index?_eq_some_iff.2 ⟨rfl, h⟩]
  rfl

theorem builds_integers {is : List Nat} (h : ∀ i ∈ is, i < t.columns) :
    Builds b t (is.map fun i => .setInteger (i + 1) true)
      { t with integer := setAll true t.integer is } := by
  induction is generalizing t with
  | nil => exact .nil
  | cons i is ih =>
    have first : Builds b t _ _ := builds_setInteger (h i List.mem_cons_self)
    exact first.append (ih fun j hj => h j (List.mem_cons_of_mem _ hj))

theorem builds_binaries {is : List Nat} (h : ∀ i ∈ is, i < t.columns) :
    Builds b t (is.map fun i => .setBinary (i + 1) true)
      { t with
        binary := setAll true t.binary is
        integer := setAll true t.integer is
        lower := setAll Double.zero t.lower is
        upper := setAll (Double.signedOne false) t.upper is } := by
  induction is generalizing t with
  | nil => exact .nil
  | cons i is ih =>
    have first : Builds b t _ _ := builds_setBinary (h i List.mem_cons_self)
    exact first.append (ih fun j hj => h j (List.mem_cons_of_mem _ hj))

end ModelState

/-- The states that the backend is given when the calls are made on a model in some state. -/
def Backend.inputs (b : Backend) : ModelState → List Call → List ModelState
  | _, [] => []
  | t, .solve :: cs => t :: b.inputs (t.answer b .solve).2 cs
  | t, c :: cs => b.inputs (t.answer b c).2 cs

theorem Backend.inputs_cons_of_ne {b : Backend} {t : ModelState} {c : Call} {cs : List Call}
    (h : c ≠ .solve) : b.inputs t (c :: cs) = b.inputs (t.answer b c).2 cs := by
  cases c <;> first | rfl | exact absurd rfl h

theorem Backend.inputs_append {b : Backend} {t u : ModelState} {xs : List Exchange}
    {cs : List Call} (hc : (Engine.buffered b).Conducts t xs u)
    (hx : ∀ x ∈ xs, x.call ≠ .solve) :
    b.inputs t (xs.map Exchange.call ++ cs) = b.inputs u cs := by
  induction xs generalizing t with
  | nil =>
    obtain rfl : t = u := hc
    rfl
  | cons x xs ih =>
    obtain ⟨hsolve, hrest⟩ := List.forall_mem_cons.1 hx
    rw [List.map_cons, List.cons_append, inputs_cons_of_ne hsolve]
    exact ih hc.2 hrest

theorem Backend.inputs_append_of_builds {b : Backend} {t u : ModelState} {cs ds : List Call}
    (hb : ModelState.Builds b t cs u) (h : ∀ c ∈ cs, c ≠ .solve) :
    b.inputs t (cs ++ ds) = b.inputs u ds := by
  obtain ⟨xs, accepted, conducts⟩ := hb
  rw [← accepted.calls_eq] at h ⊢
  exact inputs_append conducts fun x hx => h x.call (List.mem_map_of_mem hx)

theorem Backend.inputs_eq_nil {b : Backend} {t : ModelState} {cs : List Call}
    (h : ∀ c ∈ cs, c ≠ .solve) : b.inputs t cs = [] := by
  induction cs generalizing t with
  | nil => rfl
  | cons c cs ih =>
    obtain ⟨hsolve, hrest⟩ := List.forall_mem_cons.1 h
    rw [inputs_cons_of_ne hsolve]
    exact ih hrest

end LinProg
