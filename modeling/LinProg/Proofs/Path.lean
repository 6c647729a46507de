import LinProg.Dialogue

/-!
# Paths through dialogues

A path of a dialogue is a way through its tree: the calls on it, each with the reply that was
followed, and the value at the end. It does not say who gave the replies. An engine conducts a list
of exchanges from a model if its models answer these calls with these replies, one after another.

A run follows the only path that the engine conducts (`run_eq_iff`). What holds on all paths
therefore holds for all engines, and the paths of a composition are those of its parts, joined
(`path_bind_iff`).
-/

namespace LinProg

/-- From the first model the calls get the recorded replies, and they lead to the second. -/
def Engine.Conducts (e : Engine) : e.Model → List Exchange → e.Model → Prop
  | m, [], m' => m = m'
  | m, x :: xs, m' => x.reply = (e.answer m x.call).1 ∧ e.Conducts (e.answer m x.call).2 xs m'

theorem Engine.conducts_append {e : Engine} {m m' : e.Model} {xs ys : List Exchange} :
    e.Conducts m (xs ++ ys) m' ↔ ∃ mid, e.Conducts m xs mid ∧ e.Conducts mid ys m' := by
  induction xs generalizing m with
  | nil => simp [Conducts]
  | cons x xs ih => simp only [List.cons_append, Conducts, ih, and_assoc, exists_and_left]

/-- What each of the calls preserves holds of the last model too. -/
theorem Engine.Conducts.invariant {e : Engine} {P : e.Model → Prop} {m m' : e.Model}
    {xs : List Exchange} (hc : e.Conducts m xs m') (hm : P m)
    (step : ∀ x ∈ xs, ∀ m, P m → P (e.answer m x.call).2) : P m' := by
  induction xs generalizing m with
  | nil =>
    obtain rfl : m = m' := hc
    exact hm
  | cons x xs ih =>
    obtain ⟨first, rest⟩ := List.forall_mem_cons.1 step
    exact ih hc.2 (first m hm) rest

namespace Dialogue

variable {α β : Type}

inductive Path : Dialogue α → List Exchange → α → Prop
  | done (a : α) : Path (.done a) [] a
  | ask {c : Call} {next : c.Reply → Dialogue α} {r : c.Reply} {xs : List Exchange} {a : α}
      (rest : Path (next r) xs a) : Path (.ask c next) (⟨c, r⟩ :: xs) a

theorem path_done_iff {a b : α} {xs : List Exchange} :
    Path (.done a) xs b ↔ xs = [] ∧ b = a := by
  constructor
  · rintro ⟨⟩
    exact ⟨rfl, rfl⟩
  · rintro ⟨rfl, rfl⟩
    exact .done _

theorem path_ask_iff {c : Call} {next : c.Reply → Dialogue α} {xs : List Exchange} {a : α} :
    Path (.ask c next) xs a ↔ ∃ r ys, xs = ⟨c, r⟩ :: ys ∧ Path (next r) ys a := by
  constructor
  · rintro ⟨⟩
    exact ⟨_, _, rfl, ‹_›⟩
  · rintro ⟨r, ys, rfl, h⟩
    exact .ask h

theorem path_bind_iff {d : Dialogue α} {f : α → Dialogue β} {zs : List Exchange} {b : β} :
    Path (bind d f) zs b ↔ ∃ xs ys a, zs = xs ++ ys ∧ Path d xs a ∧ Path (f a) ys b := by
  induction d generalizing zs with
  | done a =>
    simp only [bind, path_done_iff]
    constructor
    · intro h
      exact ⟨[], zs, a, rfl, ⟨rfl, rfl⟩, h⟩
    · rintro ⟨xs, ys, a', rfl, ⟨rfl, rfl⟩, h⟩
      exact h
  | ask c next ih =>
    simp only [bind, path_ask_iff, ih]
    constructor
    · rintro ⟨r, rest, rfl, xs, ys, a, rfl, hd, hf⟩
      exact ⟨⟨c, r⟩ :: xs, ys, a, rfl, ⟨r, xs, rfl, hd⟩, hf⟩
    · rintro ⟨zs', ys, a, rfl, ⟨r, xs, rfl, hd⟩, hf⟩
      exact ⟨r, xs ++ ys, rfl, xs, ys, a, rfl, hd, hf⟩

theorem path_run (e : Engine) (d : Dialogue α) (m : e.Model) :
    Path d (run e d m).exchanges (run e d m).value := by
  induction d generalizing m with
  | done a => exact .done a
  | ask c next ih => exact .ask (ih _ _)

theorem conducts_run (e : Engine) (d : Dialogue α) (m : e.Model) :
    e.Conducts m (run e d m).exchanges (run e d m).model := by
  induction d generalizing m with
  | done a => rfl
  | ask c next ih => exact ⟨rfl, ih _ _⟩

theorem run_eq_of_path {e : Engine} {d : Dialogue α} {m m' : e.Model} {xs : List Exchange} {a : α}
    (hp : Path d xs a) (hc : e.Conducts m xs m') : run e d m = ⟨a, m', xs⟩ := by
  induction hp generalizing m with
  | done a =>
    obtain rfl : m = m' := hc
    rfl
  | ask rest ih =>
    simp only [Engine.Conducts] at hc
    obtain ⟨rfl, hc⟩ := hc
    simp only [run, ih hc]

theorem run_eq_iff {e : Engine} {d : Dialogue α} {m m' : e.Model} {xs : List Exchange} {a : α} :
    run e d m = ⟨a, m', xs⟩ ↔ Path d xs a ∧ e.Conducts m xs m' := by
  constructor
  · intro h
    have hp := path_run e d m
    have hc := conducts_run e d m
    rw [h] at hp hc
    exact ⟨hp, hc⟩
  · rintro ⟨hp, hc⟩
    exact run_eq_of_path hp hc

end Dialogue

end LinProg
