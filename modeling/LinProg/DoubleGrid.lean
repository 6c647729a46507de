/-!
# The grid of doubles

The nonnegative doubles are numbered in increasing order, zero first and infinity at position
`infinite`; the number of a double is its bit pattern without the sign. `units p` is the size of
the double at position `p` in units of `2 ^ (-1074)`, and `position u` is the last position whose
size is at most `u`; on the grid the two are inverse to each other (`position_units`).

`nearest num den` is the position of the double nearest to `num / den`. Of two equally near
neighbours the even position is taken, and all beyond the last finite double is infinity.
-/

-- Powers are those of the core library, also where other libraries define their own.
attribute [default_instance 20000, instance (high)] instPowNat

namespace LinProg.Double

def units (p : Nat) : Nat :=
  let k := p / 2 ^ 52 - 1
  (p - k * 2 ^ 52) * 2 ^ k

def position (u : Nat) : Nat :=
  let k := u.log2 - 52
  k * 2 ^ 52 + u / 2 ^ k

/-- The power of two by which the least positive double divides one. -/
def finest : Nat := 1074

/-- The number of units in one. -/
def one : Nat := 2 ^ finest

/-- The position of infinity; the positions beyond it are those of no number. -/
def infinite : Nat := 0x7FF * 2 ^ 52

/-- Whether `num / den` is nearer to the double after position `p`, or as near and `p` is odd. -/
def roundsUp (num den p : Nat) : Bool :=
  let twice := 2 * (num * one)
  let middle := den * (units p + units (p + 1))
  middle < twice || (middle == twice && p % 2 == 1)

def nearest (num den : Nat) : Nat :=
  let p := position (num * one / den)
  min infinite (if roundsUp num den p then p + 1 else p)

def ofPosition (negative : Bool) (p : Nat) : Float :=
  Float.ofBits (UInt64.ofNat (if negative then 2 ^ 63 + p else p))

/-- The position of a double without its sign. -/
def magnitude (x : Float) : Nat := x.toBits.toNat % 2 ^ 63

def isNegative (x : Float) : Bool := 2 ^ 63 ≤ x.toBits.toNat

def isFinite (x : Float) : Bool := magnitude x < infinite

/-- A double without its sign. -/
def abs (x : Float) : Float := ofPosition false (magnitude x)

def zero : Float := ofPosition false 0

def negZero : Float := ofPosition true 0

/-- One, or minus one. -/
def signedOne (negative : Bool) : Float := ofPosition negative (0x3FF * 2 ^ 52)

def posInf : Float := ofPosition false infinite

def negInf : Float := ofPosition true infinite

def nan : Float := ofPosition false (infinite + 2 ^ 51)

/-- The rational number that a finite double stands for. -/
def toRat? (x : Float) : Option Rat :=
  if isFinite x then
    let size := mkRat (units (magnitude x)) one
    some (if isNegative x then -size else size)
  else none

/-- The double nearest to a rational number. -/
def ofRat (r : Rat) : Float := ofPosition (r.num < 0) (nearest r.num.natAbs r.den)

theorem units_of_lt {p : Nat} (h : p < 2 ^ 53) : units p = p := by
  have : p / 2 ^ 52 - 1 = 0 := by omega
  simp only [units, this, Nat.zero_mul, Nat.sub_zero, Nat.pow_zero, Nat.mul_one]

theorem position_of_lt {u : Nat} (h : u < 2 ^ 53) : position u = u := by
  have hk : u.log2 - 52 = 0 := by
    rcases Nat.eq_zero_or_pos u with rfl | hu
    · decide
    · have := (Nat.log2_lt (by omega)).2 h
      omega
  simp [position, hk]

/-- Above the least exponent a position is a number of steps of the exponent and a fraction. -/
theorem units_step {f : Nat} (k : Nat) (h : f < 2 ^ 52) :
    units (k * 2 ^ 52 + (2 ^ 52 + f)) = (2 ^ 52 + f) * 2 ^ k := by
  have hk : (k * 2 ^ 52 + (2 ^ 52 + f)) / 2 ^ 52 - 1 = k := by omega
  simp only [units, hk]
  congr 1
  omega

theorem log2_step {f : Nat} (k : Nat) (h : f < 2 ^ 52) :
    ((2 ^ 52 + f) * 2 ^ k).log2 = 52 + k := by
  have hpos := Nat.mul_pos (show 0 < 2 ^ 52 + f by omega) (Nat.two_pow_pos k)
  have lo := Nat.mul_le_mul_right (2 ^ k) (show 2 ^ 52 ≤ 2 ^ 52 + f by omega)
  have hi := Nat.mul_lt_mul_of_pos_right (show 2 ^ 52 + f < 2 ^ 53 by omega) (Nat.two_pow_pos k)
  rw [← Nat.pow_add] at lo hi
  rw [Nat.log2_eq_iff (by omega)]
  exact ⟨lo, by rwa [show 52 + k + 1 = 53 + k by omega]⟩

theorem position_step {f : Nat} (k : Nat) (h : f < 2 ^ 52) :
    position ((2 ^ 52 + f) * 2 ^ k) = k * 2 ^ 52 + (2 ^ 52 + f) := by
  have hk : 52 + k - 52 = k := by omega
  simp only [position, log2_step k h, hk, Nat.mul_div_cancel _ (Nat.two_pow_pos k)]

theorem exists_step {p : Nat} (h : 2 ^ 52 ≤ p) :
    ∃ k f, f < 2 ^ 52 ∧ p = k * 2 ^ 52 + (2 ^ 52 + f) :=
  ⟨p / 2 ^ 52 - 1, p % 2 ^ 52, by omega, by omega⟩

theorem position_units (p : Nat) : position (units p) = p := by
  rcases Nat.lt_or_ge p (2 ^ 52) with h | h
  · rw [units_of_lt (by omega), position_of_lt (by omega)]
  · obtain ⟨k, f, hf, rfl⟩ := exists_step h
    rw [units_step k hf, position_step k hf]

theorem units_succ_step {f : Nat} (k : Nat) (h : f < 2 ^ 52) :
    units (k * 2 ^ 52 + (2 ^ 52 + f) + 1) = (2 ^ 52 + f + 1) * 2 ^ k := by
  rcases Nat.lt_or_ge (f + 1) (2 ^ 52) with hs | hs
  · rw [show k * 2 ^ 52 + (2 ^ 52 + f) + 1 = k * 2 ^ 52 + (2 ^ 52 + (f + 1)) by omega,
      units_step k hs, Nat.add_assoc]
  · rw [show k * 2 ^ 52 + (2 ^ 52 + f) + 1 = (k + 1) * 2 ^ 52 + (2 ^ 52 + 0) by omega,
      units_step (k + 1) (by omega), Nat.pow_succ, show f = 2 ^ 52 - 1 by omega]
    omega

theorem units_lt_succ (p : Nat) : units p < units (p + 1) := by
  rcases Nat.lt_or_ge p (2 ^ 52) with h | h
  · rw [units_of_lt (by omega), units_of_lt (by omega)]
    omega
  · obtain ⟨k, f, hf, rfl⟩ := exists_step h
    rw [units_step k hf, units_succ_step k hf]
    exact Nat.mul_lt_mul_of_pos_right (by omega) (Nat.two_pow_pos k)

theorem one_pos : 0 < one := Nat.two_pow_pos finest

/-- The double nearest to the size of a double is that double. -/
theorem nearest_units {p : Nat} (h : p ≤ infinite) : nearest (units p) one = p := by
  have hup : roundsUp (units p) one p = false := by
    have := Nat.mul_lt_mul_of_pos_left (units_lt_succ p) one_pos
    simp only [roundsUp, Nat.mul_add, Nat.mul_comm (units p) one, Bool.or_eq_false_iff,
      decide_eq_false_iff_not, Bool.and_eq_false_iff, beq_eq_false_iff_ne]
    omega
  simp only [nearest, Nat.mul_div_cancel _ one_pos, position_units, hup]
  exact Nat.min_eq_right h

end LinProg.Double
