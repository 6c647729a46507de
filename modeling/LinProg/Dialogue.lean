import LinProg.EngineCall

/-!
# Engines and dialogues

An engine hands out models, or refuses to, and its models answer calls; what they answer, and how
an answer depends on earlier calls, is up to the engine. A dialogue is a tree of calls: it ends
with a value, or asks a call and goes on as the reply decides. `Dialogue.run` leads a dialogue with
a model and records every exchange in order, and `Engine.visit` asks for the model first and records
that too.

Running two dialogues one after the other runs their composition (`run_bind`).
-/

namespace LinProg

structure Engine where
  name : String
  Model : Type
  create (rows columns : Nat) : Option Model
  answer : Model → (c : Call) → c.Reply × Model

inductive Dialogue (α : Type) where
  | done (a : α)
  | ask (c : Call) (next : c.Reply → Dialogue α)

namespace Dialogue

variable {α β : Type}

def bind : Dialogue α → (α → Dialogue β) → Dialogue β
  | .done a, f => f a
  | .ask c next, f => .ask c fun r => bind (next r) f

instance : Monad Dialogue where
  pure := .done
  bind := bind

/-- The dialogue of a single call. -/
def call (c : Call) : Dialogue c.Reply := .ask c .done

/-- What running a dialogue leads to: its value, the model afterwards, and the exchanges. -/
structure Run (Model α : Type) where
  value : α
  model : Model
  exchanges : List Exchange

def run (e : Engine) : Dialogue α → e.Model → Run e.Model α
  | .done a, m => ⟨a, m, []⟩
  | .ask c next, m =>
    let (reply, m) := e.answer m c
    let rest := run e (next reply) m
    { rest with exchanges := ⟨c, reply⟩ :: rest.exchanges }

theorem run_bind (e : Engine) (d : Dialogue α) (f : α → Dialogue β) (m : e.Model) :
    run e (bind d f) m =
      let first := run e d m
      let second := run e (f first.value) first.model
      { second with exchanges := first.exchanges ++ second.exchanges } := by
  induction d generalizing m with
  | done a => rfl
  | ask c next ih => simp only [bind, run, ih, List.cons_append]

end Dialogue

/-- What is asked of an engine and what it leads to: the size of a model, the value of the dialogue
with it unless it is refused, and the exchanges. -/
structure Visit (α : Type) where
  size : Nat × Nat
  value : Option α
  exchanges : List Exchange

namespace Engine

variable {α : Type} {e : Engine} {rows columns : Nat} {d : Dialogue α}

/-- Asks for a model, and leads a dialogue with it. -/
def visit (e : Engine) (rows columns : Nat) (d : Dialogue α) : Visit α :=
  match e.create rows columns with
  | none => ⟨(rows, columns), none, []⟩
  | some m =>
    let run := d.run e m
    ⟨(rows, columns), some run.value, run.exchanges⟩

theorem visit_of_refused (h : e.create rows columns = none) :
    e.visit rows columns d = ⟨(rows, columns), none, []⟩ := by
  rw [visit, h]

theorem visit_of_created {m : e.Model} (h : e.create rows columns = some m) :
    e.visit rows columns d =
      ⟨(rows, columns), some (d.run e m).value, (d.run e m).exchanges⟩ := by
  rw [visit, h]

end Engine

end LinProg
