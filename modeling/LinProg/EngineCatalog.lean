import LinProg.EngineChoice
import LinProg.ExactSolver
import LinProg.SolveError

/-!
# The engines at hand

A build of the program has backends for some of the engines one can choose. An open choice falls on
the first engine at hand. A choice of an engine that is not built in is an error, and so is an open
choice where there is none at all.
-/

namespace LinProg

/-- The backends that are built in. -/
structure Catalog where
  microlp : Option Backend := none
  highs : Option Backend := none
  coinCbc : Option Backend := none

namespace Catalog

/-- The build with the default features. -/
def standard : Catalog where
  microlp := some .exact

def backend? (k : Catalog) : EngineChoice → Option Backend
  | .auto => none
  | .microlp => k.microlp
  | .highs => k.highs
  | .coinCbc => k.coinCbc

/-- The engines at hand, in order of preference. -/
def available (k : Catalog) : List EngineChoice :=
  [.microlp, .highs, .coinCbc].filter fun c => (k.backend? c).isSome

def resolve? (k : Catalog) : EngineChoice → Option EngineChoice
  | .auto => k.available.head?
  | c => some c

def engine (k : Catalog) (c : EngineChoice) : Except SolveError Engine :=
  match k.resolve? c with
  | none => .error (.engineUnavailable "no engine backend compiled in")
  | some c =>
    match k.backend? c with
    | some b => .ok (.buffered b)
    | none =>
      let name := c.displayName
      .error (.engineUnavailable s!"backend '{name}' is not enabled in this build")

theorem exists_backend {k : Catalog} {c : EngineChoice} {e : Engine} (h : k.engine c = .ok e) :
    ∃ b, e = .buffered b := by
  unfold engine at h
  split at h
  next => cases h
  next =>
    split at h
    next b _ => exact ⟨b, (Except.ok.inj h).symm⟩
    next => cases h

end Catalog

end LinProg
