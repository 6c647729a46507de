import LinProg.Proofs.PlainDecimal
import LinProg.Reader

/-!
# What readers take

One equation for each way of putting readers together, given what its parts take. A reader that is
repeated goes on as long as it succeeds (`Steps`).
-/

namespace LinProg.Reader

variable {α β : Type} {r : Reader α} {t u v : List Char} {a : α}

theorem bind_of_some {f : α → Reader β} (h : r t = some (a, u)) : (r >>= f) t = f a u := by
  change (r t).bind (fun v => f v.1 v.2) = _
  rw [h]
  rfl

theorem bind_of_none {f : α → Reader β} (h : r t = none) : (r >>= f) t = none := by
  change (r t).bind (fun v => f v.1 v.2) = _
  rw [h]
  rfl

theorem map_of_some {f : α → β} (h : r t = some (a, u)) : (f <$> r) t = some (f a, u) := by
  simp only [Functor.map, StateT.map, h]
  rfl

theorem map_of_none {f : α → β} (h : r t = none) : (f <$> r) t = none := by
  simp only [Functor.map, StateT.map, h]
  rfl

theorem seqRight_of_some {s : Reader β} (h : r t = some (a, u)) : (r *> s) t = s u :=
  bind_of_some h

theorem seqRight_of_none {s : Reader β} (h : r t = none) : (r *> s) t = none :=
  bind_of_none h

theorem seqLeft_of_some {s : Reader β} {b : β} (h : r t = some (a, u)) (hs : s u = some (b, v)) :
    (r <* s) t = some (a, v) := by
  change (r >>= fun a => s >>= fun _ => pure a) t = _
  rw [bind_of_some h, bind_of_some hs]
  rfl

theorem seqLeft_of_none {s : Reader β} (h : r t = none) : (r <* s) t = none :=
  bind_of_none h

theorem orElse_of_some {s : Reader α} {x : α × List Char} (h : r t = some x) :
    (r <|> s) t = some x := by
  change (r t <|> s t) = _
  rw [h]
  rfl

theorem orElse_of_none {s : Reader α} (h : r t = none) : (r <|> s) t = s t := by
  change (r t <|> s t) = _
  rw [h]
  rfl

theorem attempt_of_some (h : r t = some (a, u)) : attempt r t = some (some a, u) :=
  orElse_of_some (map_of_some h)

theorem attempt_of_none (h : r t = none) : attempt r t = some (none, t) :=
  orElse_of_none (map_of_none h)

theorem char_of_pos {p : Char → Bool} {c : Char} (h : p c = true) :
    char p (c :: t) = some (c, t) :=
  if_pos h

theorem char_of_neg {p : Char → Bool} (h : ∀ c ∈ t.head?, p c = false) : char p t = none := by
  cases t with
  | nil => rfl
  | cons c t => exact if_neg (by simp [h c rfl])

theorem exactly_self (c : Char) (t : List Char) : exactly c (c :: t) = some ((), t) :=
  bind_of_some (char_of_pos (beq_self_eq_true c))

theorem exactly_of_ne {c : Char} (h : ∀ d ∈ t.head?, d ≠ c) : exactly c t = none :=
  bind_of_none (char_of_neg fun d hd => by simpa using h d hd)

theorem word_of_ne {c : Char} {w : List Char} (h : ∀ d ∈ t.head?, d ≠ c) : word (c :: w) t = none :=
  bind_of_none (exactly_of_ne h)

theorem span_append {p : Char → Bool} {l : List Char} (hl : ∀ c ∈ l, p c = true)
    (ht : ∀ c ∈ t.head?, p c = false) : span p (l ++ t) = some (l, t) := by
  rw [span, takeWhile_append_of_head? hl ht, dropWhile_append_of_head? hl ht]

theorem run_append {p : Char → Bool} {l : List Char} (hne : l ≠ []) (hl : ∀ c ∈ l, p c = true)
    (ht : ∀ c ∈ t.head?, p c = false) : run p (l ++ t) = some (l, t) := by
  rw [run, bind_of_some (span_append hl ht), if_neg (by simpa using hne)]
  rfl

theorem run_of_neg {p : Char → Bool} (h : ∀ c ∈ t.head?, p c = false) : run p t = none :=
  bind_of_some (span_append (List.forall_mem_nil _) h)

theorem count_append {p : Char → Bool} {l : List Char} (hl : ∀ c ∈ l, p c = true) :
    count l.length p (l ++ t) = some (l, t) := by
  have hmapM (ns : List Nat) (h : ns.length = l.length) :
      (ns.mapM fun _ => char p) (l ++ t) = some (l, t) := by
    induction l generalizing ns with
    | nil =>
      rw [List.length_eq_zero_iff.1 h]
      rfl
    | cons c l ih =>
      obtain ⟨n, ns, rfl⟩ := List.exists_cons_of_length_eq_add_one h
      obtain ⟨hc, hl⟩ := List.forall_mem_cons.1 hl
      rw [List.mapM_cons, List.cons_append, bind_of_some (char_of_pos hc),
        bind_of_some (ih hl ns (Nat.succ.inj h))]
      rfl
  exact hmapM _ List.length_range

/-- A repeated reader, step by step, up to where it fails. -/
inductive Steps (r : Reader α) : List Char → List α → List Char → Prop
  | stop {t : List Char} (h : r t = none) : Steps r t [] t
  | more {l t u : List Char} {a : α} {as : List α} (h : r (l ++ t) = some (a, t)) (hne : l ≠ [])
      (rest : Steps r t as u) : Steps r (l ++ t) (a :: as) u

theorem Steps.upTo_eq {as : List α} (h : Steps r t as u) {n : Nat} (hn : t.length ≤ n) :
    upTo r n t = some (as, u) := by
  induction h generalizing n with
  | stop h =>
    cases n with
    | zero => rfl
    | succ n => simp only [upTo, h]
  | @more l t u a as h hne rest ih =>
    have hl : 0 < l.length := List.length_pos_iff.2 hne
    rw [List.length_append] at hn
    obtain ⟨n, rfl⟩ := Nat.exists_eq_succ_of_ne_zero (show n ≠ 0 by omega)
    simp only [upTo, h, ih (show t.length ≤ n by omega), Option.map_some]

theorem Steps.many_eq {as : List α} (h : Steps r t as u) : many r t = some (as, u) :=
  h.upTo_eq (Nat.le_refl _)

end LinProg.Reader
