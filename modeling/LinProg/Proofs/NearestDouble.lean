import LinProg.Proofs.NumeralRounding

/-!
# What the nearest double is

The sizes of the positions increase strictly, and every number that is not negative lies between two
of them. `Nearest r p` says that no position is nearer to `r`, and that of two equally near
positions this is the even one; there is just one such position. A double rounds a number if its
sign is that of the number and its position is the nearest one, all positions behind the last finite
double being infinity. This is what `signed` computes (`rounds_iff`).
-/

namespace LinProg.Double

theorem exists_position_eq {u : Nat} (h : 2 ^ 52 ≤ u) :
    ∃ k f, f < 2 ^ 52 ∧ position u = k * 2 ^ 52 + (2 ^ 52 + f) ∧ u / 2 ^ k = 2 ^ 52 + f := by
  have hu : u ≠ 0 := by omega
  obtain ⟨k, hk⟩ := Nat.exists_eq_add_of_le ((Nat.le_log2 hu).2 h)
  have lower : 2 ^ 52 ≤ u / 2 ^ k := by
    rw [Nat.le_div_iff_mul_le (Nat.two_pow_pos k), ← Nat.pow_add, ← hk]
    exact Nat.log2_self_le hu
  have upper : u / 2 ^ k < 2 ^ 53 := by
    rw [Nat.div_lt_iff_lt_mul (Nat.two_pow_pos k), ← Nat.pow_add, show 53 + k = 52 + k + 1 by omega,
      ← hk]
    exact Nat.lt_log2_self
  have hsub : u.log2 - 52 = k := by omega
  refine ⟨k, u / 2 ^ k - 2 ^ 52, by omega, ?_, by omega⟩
  simp only [position, hsub]
  omega

theorem units_position_le (u : Nat) : units (position u) ≤ u := by
  rcases Nat.lt_or_ge u (2 ^ 52) with h | h
  · rw [position_of_lt (by omega), units_of_lt (by omega)]
  · obtain ⟨k, f, hf, hposition, hquotient⟩ := exists_position_eq h
    rw [hposition, units_step k hf, ← hquotient]
    exact Nat.div_mul_le_self u (2 ^ k)

theorem lt_units_position_succ (u : Nat) : u < units (position u + 1) := by
  rcases Nat.lt_or_ge u (2 ^ 52) with h | h
  · rw [position_of_lt (by omega), units_of_lt (by omega)]
    omega
  · obtain ⟨k, f, hf, hposition, hquotient⟩ := exists_position_eq h
    rw [hposition, units_succ_step k hf, ← hquotient]
    exact Nat.lt_mul_of_div_lt (Nat.lt_succ_self _) (Nat.two_pow_pos k)

/-- The size of the double at a position. Behind the last finite double the grid goes on. -/
def size (p : Nat) : Rat := units p / one

theorem cast_one_pos : (0 : Rat) < one := Nat.cast_pos.2 one_pos

theorem size_mul_one (p : Nat) : size p * one = units p :=
  div_mul_cancel₀ _ cast_one_pos.ne'

theorem size_strictMono : StrictMono size := by
  apply strictMono_nat_of_lt_succ
  intro p
  exact div_lt_div_of_pos_right (Nat.cast_lt.2 (units_lt_succ p)) cast_one_pos

/-- Of two numbers the greater is the nearer one from their middle on. -/
theorem abs_sub_le_iff_middle_le {a b r : Rat} (h : a < b) : |r - b| ≤ |r - a| ↔ a + b ≤ 2 * r := by
  have hsquares : (r - a) ^ 2 - (r - b) ^ 2 = (b - a) * (2 * r - (a + b)) := by ring
  rw [← sq_le_sq, ← sub_nonneg, hsquares, mul_nonneg_iff_of_pos_left (sub_pos.2 h), sub_nonneg]

theorem abs_sub_le_iff_le_middle {a b r : Rat} (h : a < b) : |r - a| ≤ |r - b| ↔ 2 * r ≤ a + b := by
  have hsquares : (r - b) ^ 2 - (r - a) ^ 2 = (b - a) * ((a + b) - 2 * r) := by ring
  rw [← sq_le_sq, ← sub_nonneg, hsquares, mul_nonneg_iff_of_pos_left (sub_pos.2 h), sub_nonneg]

/-- No position is nearer to the number, and of two equally near ones it is the even one. -/
structure Nearest (r : Rat) (p : Nat) : Prop where
  le : ∀ q, |r - size p| ≤ |r - size q|
  even : ∀ q ≠ p, |r - size q| = |r - size p| → p % 2 = 0

namespace Nearest

variable {r : Rat} {p q : Nat}

/-- It is enough to look at the middles between the position and the others. -/
theorem of_middles (below : ∀ q < p, size q + size p ≤ 2 * r)
    (above : ∀ q, p < q → 2 * r ≤ size p + size q)
    (even : ∀ q ≠ p, size p + size q = 2 * r → p % 2 = 0) : Nearest r p := by
  constructor
  · intro q
    rcases Nat.lt_trichotomy q p with hq | rfl | hq
    · exact (abs_sub_le_iff_middle_le (size_strictMono hq)).2 (below q hq)
    · exact le_rfl
    · exact (abs_sub_le_iff_le_middle (size_strictMono hq)).2 (above q hq)
  · intro q hne heq
    apply even q hne
    rcases Nat.lt_or_gt_of_ne hne with hq | hq
    · have := (abs_sub_le_iff_le_middle (size_strictMono hq)).1 heq.le
      linarith [below q hq]
    · have := (abs_sub_le_iff_middle_le (size_strictMono hq)).1 heq.le
      linarith [above q hq]

theorem not_lt (hp : Nearest r p) (hq : Nearest r q) : ¬ p < q := by
  intro hlt
  have hdistance := le_antisymm (hp.le q) (hq.le p)
  have hp2 := hp.even q (Nat.ne_of_gt hlt) hdistance.symm
  have hq2 := hq.even p (Nat.ne_of_lt hlt) hdistance
  have hnext := (abs_sub_le_iff_le_middle (size_strictMono (Nat.lt_succ_self p))).1 (hp.le (p + 1))
  have hmiddle := (abs_sub_le_iff_middle_le (size_strictMono hlt)).1 hdistance.ge
  have := size_strictMono (show p + 1 < q by omega)
  linarith

theorem unique (hp : Nearest r p) (hq : Nearest r q) : p = q :=
  Nat.le_antisymm (Nat.le_of_not_lt (hq.not_lt hp)) (Nat.le_of_not_lt (hp.not_lt hq))

/-- The lower of two positions around a number is nearest up to their middle. -/
theorem lower (hp : size p ≤ r) (hmiddle : 2 * r ≤ size p + size (p + 1))
    (heven : size p + size (p + 1) = 2 * r → p % 2 = 0) : Nearest r p := by
  have hnext : ∀ q, p < q → size (p + 1) ≤ size q := fun q hq => size_strictMono.monotone hq
  apply of_middles
  · intro q hq
    linarith [size_strictMono hq]
  · intro q hq
    linarith [hnext q hq]
  · intro q hne heq
    rcases Nat.lt_or_gt_of_ne hne with hq | hq
    · linarith [size_strictMono hq]
    · exact heven (by linarith [hnext q hq])

/-- The upper one is nearest from the middle on. -/
theorem upper (hnext : r < size (p + 1)) (hmiddle : size p + size (p + 1) ≤ 2 * r)
    (hodd : size p + size (p + 1) = 2 * r → p % 2 = 1) : Nearest r (p + 1) := by
  have hlast : ∀ q < p + 1, size q ≤ size p :=
    fun q hq => size_strictMono.monotone (Nat.le_of_lt_succ hq)
  apply of_middles
  · intro q hq
    linarith [hlast q hq]
  · intro q hq
    linarith [size_strictMono hq]
  · intro q hne heq
    rcases Nat.lt_or_gt_of_ne hne with hq | hq
    · have := hodd (by linarith [hlast q hq])
      omega
    · linarith [size_strictMono hq]

end Nearest

section Quotient

variable (num : Nat) {den : Nat}

theorem cast_quotient_le_iff {u : Nat} (hd : 0 < den) :
    (u : Rat) / one ≤ (num : Rat) / den ↔ u * den ≤ num * one := by
  rw [div_le_div_iff₀ cast_one_pos (Nat.cast_pos.2 hd)]
  exact_mod_cast Iff.rfl

theorem size_position_le (hd : 0 < den) : size (position (num * one / den)) ≤ (num : Rat) / den :=
  (cast_quotient_le_iff num hd).2 <|
    (Nat.le_div_iff_mul_le hd).1 (units_position_le (num * one / den))

theorem lt_size_position_succ (hd : 0 < den) :
    (num : Rat) / den < size (position (num * one / den) + 1) := by
  rw [size, ← not_le, cast_quotient_le_iff num hd, ← Nat.le_div_iff_mul_le hd, not_le]
  exact lt_units_position_succ (num * one / den)

theorem roundsUp_iff {p : Nat} (hd : 0 < den) :
    roundsUp num den p = true ↔ size p + size (p + 1) < 2 * ((num : Rat) / den) ∨
      size p + size (p + 1) = 2 * ((num : Rat) / den) ∧ p % 2 = 1 := by
  have hscale : (0 : Rat) < den * one := mul_pos (Nat.cast_pos.2 hd) cast_one_pos
  have hmiddle : (den * one : Rat) * (size p + size (p + 1)) =
      ((den * (units p + units (p + 1)) : Nat) : Rat) := by
    rw [mul_assoc, mul_add (one : Rat), mul_comm (one : Rat), mul_comm (one : Rat), size_mul_one,
      size_mul_one, Nat.cast_mul, Nat.cast_add]
  have htwice :
      (den * one : Rat) * (2 * ((num : Rat) / den)) = ((2 * (num * one) : Nat) : Rat) := by
    rw [mul_right_comm, mul_left_comm, mul_div_cancel₀ _ (Nat.cast_pos.2 hd).ne', Nat.cast_mul,
      Nat.cast_mul, Nat.cast_ofNat, mul_assoc]
  rw [← mul_lt_mul_iff_right₀ hscale, ← mul_right_inj' hscale.ne', hmiddle, htwice, Nat.cast_lt,
    Nat.cast_inj]
  simp [roundsUp]

/-- The position next to the quotient that is nearest to it. -/
theorem exists_nearest (hd : 0 < den) :
    ∃ p, Nearest ((num : Rat) / den) p ∧ nearest num den = min infinite p := by
  have hlower := size_position_le num hd
  have hupper := lt_size_position_succ num hd
  have hup := roundsUp_iff num (p := position (num * one / den)) hd
  refine ⟨_, ?_, rfl⟩
  generalize position (num * one / den) = p at hlower hupper hup
  split
  next h =>
    rcases hup.1 h with hmiddle | ⟨hmiddle, hodd⟩
    · exact .upper hupper hmiddle.le fun heq => absurd heq hmiddle.ne
    · exact .upper hupper hmiddle.le fun _ => hodd
  next h =>
    rw [hup, not_or, not_lt, not_and] at h
    refine .lower hlower h.1 fun heq => ?_
    have := h.2 heq
    omega

end Quotient

theorem units_two_pow (k : Nat) : units ((k + 1) * 2 ^ 52) = 2 ^ (52 + k) := by
  rw [Nat.succ_mul, ← Nat.add_zero (2 ^ 52), units_step k (Nat.two_pow_pos 52), Nat.add_zero,
    Nat.pow_add]

theorem units_signedOne : units (0x3FF * 2 ^ 52) = one := by
  -- The exponent is kept a variable, so that the power is not evaluated.
  obtain ⟨k, hposition, hexponent⟩ : ∃ k, 0x3FF = k + 1 ∧ finest = 52 + k := ⟨1022, rfl, rfl⟩
  rw [hposition, units_two_pow, one, hexponent]

theorem signed_one (negative : Bool) : signed negative 1 = signedOne negative := by
  have hone : nearest (1 * one) (1 * one) = 0x3FF * 2 ^ 52 := by
    rw [Nat.one_mul, ← congrArg (nearest · one) units_signedOne]
    exact nearest_units (by decide)
  rw [nearest_mul_right 1 1 one_pos] at hone
  exact congrArg (ofPosition negative) hone

/-- The double is the nearest one to a number of this sign and size. All positions behind the last
finite double are those of infinity. -/
structure Rounds (negative : Bool) (size : Rat) (x : Float) : Prop where
  sign : isNegative x = negative
  position : ∃ p, Nearest size p ∧ magnitude x = min infinite p

theorem rounds_signed (negative : Bool) {r : Rat} (h : 0 ≤ r) :
    Rounds negative r (signed negative r) := by
  obtain ⟨p, hp, hnearest⟩ := exists_nearest r.num.natAbs r.den_pos
  have hr : (r.num.natAbs : Rat) / r.den = r := by
    rw [Nat.cast_natAbs, abs_of_nonneg (Rat.num_nonneg.2 h), Rat.num_div_den]
  have hle : nearest r.num.natAbs r.den ≤ infinite := hnearest ▸ Nat.min_le_left ..
  refine ⟨isNegative_ofPosition hle, p, hr ▸ hp, ?_⟩
  rw [signed, magnitude_ofPosition hle, hnearest]

theorem rounds_iff {negative : Bool} {r : Rat} {x : Float} (h : 0 ≤ r) :
    Rounds negative r x ↔ x = signed negative r := by
  constructor
  · rintro ⟨hsign, p, hp, hposition⟩
    obtain ⟨hsign', p', hp', hposition'⟩ := rounds_signed negative h
    calc
      x = ofPosition (isNegative x) (magnitude x) := (ofPosition_magnitude x).symm
      _ = ofPosition (isNegative (signed negative r)) (magnitude (signed negative r)) := by
        rw [hsign, hsign', hposition, hposition', hp.unique hp']
      _ = signed negative r := ofPosition_magnitude _
  · rintro rfl
    exact rounds_signed negative h

end LinProg.Double
