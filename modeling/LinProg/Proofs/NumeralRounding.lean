import LinProg.Proofs.ShortestReading

/-!
# Numerals rounded to doubles

A numeral stands for a rational number, and reads as the double nearest to it (`toFloat_eq`). The
numerals that are taken for infinity or for zero by their order alone are no exception: they lie so
far beyond the doubles that their nearest double is the same.
-/

namespace LinProg

namespace Double

/-- The double nearest to a rational number that is not negative, with a sign of its own. -/
def signed (negative : Bool) (size : Rat) : Float :=
  ofPosition negative (nearest size.num.natAbs size.den)

/-- A fraction need not be in lowest terms to be rounded. -/
theorem nearest_div (num : Nat) {den : Nat} (hd : den ≠ 0) :
    nearest ((num : Rat) / den).num.natAbs ((num : Rat) / den).den = nearest num den := by
  obtain ⟨k, hnum, hden⟩ := Rat.exists_eq_mul_div_num_and_eq_mul_div_den (num : Int)
    (show (den : Int) ≠ 0 by omega)
  rw [Int.cast_natCast, Int.cast_natCast] at hnum hden
  have hk : k.natAbs ≠ 0 := by
    intro hzero
    rw [Int.natAbs_eq_zero.1 hzero, Int.zero_mul] at hden
    omega
  have hnum' := congrArg Int.natAbs hnum
  have hden' := congrArg Int.natAbs hden
  rw [Int.natAbs_mul, Nat.mul_comm, Int.natAbs_natCast] at hnum' hden'
  rw [Int.natAbs_natCast] at hden'
  have hcancel := nearest_mul_right ((num : Rat) / den).num.natAbs ((num : Rat) / den).den
    (Nat.pos_of_ne_zero hk)
  rw [← hnum', ← hden'] at hcancel
  exact hcancel.symm

theorem signed_div (negative : Bool) (num : Nat) {den : Nat} (hd : den ≠ 0) :
    signed negative ((num : Rat) / den) = ofPosition negative (nearest num den) :=
  congrArg (ofPosition negative) (nearest_div num hd)

theorem infinite_le_position {u : Nat} (h : 1026 + finest ≤ u.log2) : infinite ≤ position u := by
  have hfinest : finest = 1074 := rfl
  have hsteps := Nat.mul_le_mul_right (2 ^ 52) (show 0x7FF ≤ u.log2 - 52 by omega)
  exact Nat.le_trans hsteps (Nat.le_add_right ..)

theorem nearest_eq_infinite {num den : Nat} (h : infinite ≤ position (num * one / den)) :
    nearest num den = infinite := by
  simp only [nearest]
  split <;> omega

/-- What is beyond the last double by far is nearest to infinity. -/
theorem nearest_of_le {num den k : Nat} (hk : 1026 ≤ k) (hd : 0 < den) (h : den * 2 ^ k ≤ num) :
    nearest num den = infinite := by
  have hquotient : 2 ^ (k + finest) ≤ num * one / den := by
    rw [Nat.le_div_iff_mul_le hd, Nat.pow_add, Nat.mul_right_comm, Nat.mul_comm (2 ^ k) den]
    exact Nat.mul_le_mul_right _ h
  have hpos : 0 < num * one / den := Nat.lt_of_lt_of_le (Nat.two_pow_pos _) hquotient
  have hlog := (Nat.le_log2 (Nat.ne_of_gt hpos)).2 hquotient
  exact nearest_eq_infinite (infinite_le_position (Nat.le_trans (Nat.add_le_add_right hk _) hlog))

/-- What is below half the least double is nearest to zero. -/
theorem nearest_of_lt {num den : Nat} (h : num * 2 ^ (finest + 1) < den) : nearest num den = 0 := by
  have hone : one * 2 = 2 ^ (finest + 1) := by rw [one, Nat.pow_succ]
  have htwice : 2 * (num * one) < den := by
    rwa [Nat.mul_comm 2, Nat.mul_assoc, hone]
  have hzero : num * one / den = 0 := Nat.div_eq_of_lt (by omega)
  have hup : roundsUp num den 0 = false := by
    have hunits : units 0 + units (0 + 1) = 1 := by decide
    simp only [roundsUp, hunits, Nat.mul_one, Bool.or_eq_false_iff, decide_eq_false_iff_not,
      Bool.and_eq_false_iff, beq_eq_false_iff_ne]
    omega
  have hposition : position 0 = 0 := by decide
  simp only [nearest, hzero, hposition, hup]
  rfl

/-- The sign is all that is left of a number that is zero. -/
theorem signed_zero (negative : Bool) : signed negative 0 = ofPosition negative 0 := by
  have hzero : nearest 0 1 = 0 := by
    apply nearest_of_lt
    rw [Nat.zero_mul]
    exact Nat.one_pos
  exact congrArg (ofPosition negative) hzero

end Double

namespace Numeral

/-- The rational number that a numeral stands for, without its sign. -/
def value (n : Numeral) : Rat := n.coefficient * (10 : Rat) ^ n.scale

theorem value_eq (n : Numeral) :
    n.value = ((n.coefficient * 10 ^ n.scale.toNat : Nat) : Rat) /
      ((10 ^ (-n.scale).toNat : Nat) : Rat) := by
  have hscale : n.scale = (n.scale.toNat : Int) - ((-n.scale).toNat : Int) := by omega
  rw [value]
  conv_lhs => rw [hscale]
  rw [zpow_sub₀ (by norm_num), zpow_natCast, zpow_natCast, mul_div_assoc']
  push_cast
  rfl

theorem two_pow_le (k : Nat) : 2 ^ (3 * k) ≤ 10 ^ k := by
  have hpow := Decimal.pow_mul_le_pow_mul (show 2 ^ 3 ≤ 10 ^ 1 by decide) k
  rwa [Nat.one_mul] at hpow

theorem nearest_of_reach_lt {n : Numeral} (hd : AllDigits n.digits) (hne : n.coefficient ≠ 0)
    (h : reach < n.order) :
    Double.nearest (n.coefficient * 10 ^ n.scale.toNat) (10 ^ (-n.scale).toNat) =
      Double.infinite := by
  have hsize : n.size ≠ 0 := by
    intro hzero
    have hlt := coefficient_lt hd
    rw [hzero] at hlt
    omega
  have horder : n.order = n.size + n.scale := rfl
  have hreach : reach = 400 := rfl
  obtain ⟨k, hk, hk'⟩ : ∃ k, 1026 ≤ 3 * k ∧ k ≤ 400 := ⟨342, by decide, by decide⟩
  apply Double.nearest_of_le hk (Nat.pow_pos (by omega))
  calc
    10 ^ (-n.scale).toNat * 2 ^ (3 * k) ≤ 10 ^ (-n.scale).toNat * 10 ^ k :=
      Nat.mul_le_mul_left _ (two_pow_le k)
    _ = 10 ^ ((-n.scale).toNat + k) := (Nat.pow_add ..).symm
    _ ≤ 10 ^ (n.size - 1 + n.scale.toNat) := Nat.pow_le_pow_right (by omega) (by omega)
    _ = 10 ^ (n.size - 1) * 10 ^ n.scale.toNat := Nat.pow_add ..
    _ ≤ n.coefficient * 10 ^ n.scale.toNat :=
      Nat.mul_le_mul_right _ (le_coefficient hd hsize)

theorem nearest_of_lt_neg_reach {n : Numeral} (hd : AllDigits n.digits) (h : n.order < -reach) :
    Double.nearest (n.coefficient * 10 ^ n.scale.toNat) (10 ^ (-n.scale).toNat) = 0 := by
  have horder : n.order = n.size + n.scale := rfl
  have hreach : reach = 400 := rfl
  obtain ⟨k, hk, hk'⟩ : ∃ k, Double.finest + 1 ≤ 3 * k ∧ k ≤ 400 := ⟨359, by decide, by decide⟩
  apply Double.nearest_of_lt
  calc
    n.coefficient * 10 ^ n.scale.toNat * 2 ^ (Double.finest + 1)
        = n.coefficient * 2 ^ (Double.finest + 1) := by
          rw [show n.scale.toNat = 0 by omega, Nat.pow_zero, Nat.mul_one]
    _ < 10 ^ n.size * 2 ^ (Double.finest + 1) :=
      Nat.mul_lt_mul_of_pos_right (coefficient_lt hd) (Nat.two_pow_pos _)
    _ ≤ 10 ^ n.size * 2 ^ (3 * k) :=
      Nat.mul_le_mul_left _ (Nat.pow_le_pow_right (by omega) hk)
    _ ≤ 10 ^ n.size * 10 ^ k := Nat.mul_le_mul_left _ (two_pow_le k)
    _ = 10 ^ (n.size + k) := (Nat.pow_add ..).symm
    _ ≤ 10 ^ (-n.scale).toNat := Nat.pow_le_pow_right (by omega) (by omega)

theorem position_eq {n : Numeral} (hd : AllDigits n.digits) :
    n.position =
      Double.nearest (n.coefficient * 10 ^ n.scale.toNat) (10 ^ (-n.scale).toNat) := by
  unfold position
  split
  next hzero =>
    rw [hzero, Nat.zero_mul]
    exact (Double.nearest_of_lt (by rw [Nat.zero_mul]; exact Nat.pow_pos (by omega))).symm
  next hne =>
    split
    next h => exact (nearest_of_reach_lt hd hne h).symm
    next =>
      split
      next h => exact (nearest_of_lt_neg_reach hd h).symm
      next => rfl

/-- A numeral reads as the double nearest to its value. -/
theorem toFloat_eq {n : Numeral} (hd : AllDigits n.digits) :
    n.toFloat = Double.signed n.negative n.value := by
  have hden : 10 ^ (-n.scale).toNat ≠ 0 := Nat.ne_of_gt (Nat.pow_pos (by omega))
  rw [toFloat, position_eq hd, value_eq, Double.signed_div _ _ hden]

end Numeral

end LinProg
