import LinProg.ShortestDecimal

/-!
# Durations

A span of time in whole seconds and nanoseconds below one second. Engines take limits in whole
seconds and read zero as no limit at all, so a positive span below one second counts as one.
-/

namespace LinProg

structure Duration where
  seconds : UInt64
  nanos : Nat
  nanos_lt : nanos < 10 ^ 9 := by decide
deriving Repr, DecidableEq

namespace Duration

def ofSeconds (seconds : UInt64) : Duration := ⟨seconds, 0, by decide⟩

/-- Nanoseconds of a second and more are carried into the seconds. -/
def ofParts (seconds : UInt64) (nanos : Nat) : Duration :=
  ⟨seconds + UInt64.ofNat (nanos / 10 ^ 9), nanos % 10 ^ 9, Nat.mod_lt _ (by decide)⟩

def totalNanos (d : Duration) : Nat := d.seconds.toNat * 10 ^ 9 + d.nanos

/-- The limit in whole seconds that an engine is given. -/
def engineSeconds (d : Duration) : UInt64 :=
  if d.seconds = 0 ∧ d.nanos ≠ 0 then 1 else d.seconds

/-- `whole` and a fraction of `places` digits, without zeros at its end. -/
def fractionText (whole fraction places : Nat) : List Char :=
  let ds := (Decimal.pointed places (Nat.toDigits 10 fraction)).drop 2
  let kept := (ds.reverse.dropWhile (· == '0')).reverse
  Nat.toDigits 10 whole ++ if kept.isEmpty then [] else '.' :: kept

/-- The span in the largest unit that is not below one of it. -/
def text (d : Duration) : String :=
  if 0 < d.seconds then String.ofList (fractionText d.seconds.toNat d.nanos 9) ++ "s"
  else if 10 ^ 6 ≤ d.nanos then
    String.ofList (fractionText (d.nanos / 10 ^ 6) (d.nanos % 10 ^ 6) 6) ++ "ms"
  else if 10 ^ 3 ≤ d.nanos then
    String.ofList (fractionText (d.nanos / 10 ^ 3) (d.nanos % 10 ^ 3) 3) ++ "µs"
  else toString d.nanos ++ "ns"

end Duration

end LinProg
