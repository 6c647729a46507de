import LinProg.Numeral
import LinProg.Rounding

/-!
# Shortest decimals

A decimal is a natural coefficient and a power of ten. `shortest tie p` is the decimal with the
fewest digits that reads back as the double at position `p`, the nearer one if two of that length
do, and as `tie` says if they are equally near. It is found by cutting the expansion of the double
after one, two, three digits and so on and testing both neighbours; should every cut fail, the full
expansion stands in.

`Decimal.plain` writes a decimal without an exponent.
-/

namespace LinProg

structure Decimal where
  coefficient : Nat
  exponent : Int
deriving Repr, DecidableEq

namespace Decimal

def zeros (n : Nat) : List Char := List.replicate n '0'

/-- Digits with a point before the last `places` of them. -/
def pointed (places : Nat) (ds : List Char) : List Char :=
  let padded := zeros (places + 1 - ds.length) ++ ds
  let cut := padded.length - places
  padded.take cut ++ '.' :: padded.drop cut

/-- The decimal without an exponent, with a point only if it is needed. -/
def plain (d : Decimal) : List Char :=
  let ds := Nat.toDigits 10 d.coefficient
  if 0 ≤ d.exponent then ds ++ zeros d.exponent.toNat
  else pointed (-d.exponent).toNat ds

def toRat (d : Decimal) : Rat :=
  mkRat (d.coefficient * 10 ^ d.exponent.toNat) (10 ^ (-d.exponent).toNat)

/-- The same number without zeros at the end of the coefficient. -/
def trimmed (d : Decimal) : Decimal :=
  let ds := Nat.toDigits 10 d.coefficient
  let drop := (ds.reverse.takeWhile (· == '0')).length
  if d.coefficient = 0 then d else ⟨d.coefficient / 10 ^ drop, d.exponent + drop⟩

/-- Whether the decimal, written out, reads as the double at position `p`. -/
def readsAs (p : Nat) (d : Decimal) : Bool :=
  (Numeral.ofText? d.plain).any fun n => !n.negative && n.position == p

/-- The full expansion of the double at position `p`. -/
def exact (p : Nat) : Decimal := ⟨Double.units p * 5 ^ Double.finest, -Double.finest⟩

/-- The place at which expansions are broken off, far below the digits of any double. -/
def depth : Nat := 345

/-- The decimal of `n` digits that reads as the double at position `p`, if there is one. -/
def ofLength? (tie : Tie) (p n : Nat) : Option Decimal :=
  let size := Double.units p * 10 ^ depth
  let dropped := (Nat.toDigits 10 (size / Double.one)).length - n
  let step := Double.one * 10 ^ dropped
  let below := size / step
  let nearest := if tie.roundsUp size step then [below + 1, below] else [below, below + 1]
  (nearest.map fun c => trimmed ⟨c, (dropped : Int) - depth⟩).find? (readsAs p)

def shortest (tie : Tie) (p : Nat) : Decimal :=
  if p = 0 then ⟨0, 0⟩
  else ((List.range' 1 17).findSome? (ofLength? tie p)).getD (exact p)

end Decimal

end LinProg
