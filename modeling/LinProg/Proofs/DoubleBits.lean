import LinProg.DoubleGrid
import Mathlib

/-!
# The bits of doubles

A double is determined by its sign and its position (`ofPosition_magnitude`), and both are kept when
a bit pattern is taken for a double, unless it is one of no number: what is no number has one bit
pattern only, without a sign.
-/

namespace LinProg.Double

open Float.Model Float.Model.UnpackedFloat

/-- The bit pattern of a double. -/
abbrev Word := BitVec Format.binary64.numBits

theorem toNat_unpackMantissa (b : Word) : (unpackMantissa b).toNat = b.toNat % 2 ^ 52 := by
  simp [unpackMantissa]

theorem toNat_unpackExponent (b : Word) :
    (unpackExponent b).toNat = b.toNat / 2 ^ 52 % 2 ^ 11 := by
  simp [unpackExponent, Nat.shiftRight_eq_div_pow]

theorem isNaNBits_iff {b : Word} : isNaNBits b = true ↔ infinite < b.toNat % 2 ^ 63 := by
  have mantissa := toNat_unpackMantissa b
  have exponent := toNat_unpackExponent b
  have hexponent : unpackExponent b = -1#11 ↔ b.toNat / 2 ^ 52 % 2 ^ 11 = 2 ^ 11 - 1 := by
    rw [← exponent, ← BitVec.toNat_inj]
    rfl
  have hmantissa : unpackMantissa b ≠ 0#52 ↔ b.toNat % 2 ^ 52 ≠ 0 := by
    rw [← mantissa, Ne, ← BitVec.toNat_inj]
    rfl
  rw [isNaNBits, decide_eq_true_iff, hexponent, hmantissa]
  unfold infinite
  omega

theorem toBits_ofBits {a : UInt64} (h : a.toNat % 2 ^ 63 ≤ infinite) :
    (Float.ofBits a).toBits = a := by
  have hnumber : @isNaNBits .binary64 a.toBitVec = false := by
    rw [Bool.eq_false_iff, Ne, isNaNBits_iff]
    exact Nat.not_lt.2 h
  have hpack := @pack_unpack .binary64 a.toBitVec (by decide)
  rw [hnumber] at hpack
  exact UInt64.toBitVec_inj.1 hpack

theorem toNat_toBits_of_infinite_lt {x : Float} (h : infinite < magnitude x) :
    x.toBits.toNat = infinite + 2 ^ 51 := by
  have hnan : @isNaNBits .binary64 x.toBits.toBitVec = true := isNaNBits_iff.2 h
  obtain ⟨hexponent, hmantissa⟩ := of_decide_eq_true hnan
  have hbits := x.toModel.valid.eq_packedNaN hexponent hmantissa
  exact congrArg BitVec.toNat hbits

theorem lt_of_le_infinite {p : Nat} (h : p ≤ infinite) : p < 2 ^ 63 := by
  unfold infinite at h
  omega

theorem toNat_toBits_ofPosition {negative : Bool} {p : Nat} (h : p ≤ infinite) :
    (ofPosition negative p).toBits.toNat = if negative then 2 ^ 63 + p else p := by
  have hp := lt_of_le_infinite h
  have hn : (UInt64.ofNat (if negative then 2 ^ 63 + p else p)).toNat =
      if negative then 2 ^ 63 + p else p := by
    apply UInt64.toNat_ofNat_of_lt
    rw [show UInt64.size = 2 ^ 64 from rfl]
    split <;> omega
  rw [ofPosition, toBits_ofBits, hn]
  rw [hn]
  split <;> omega

theorem magnitude_ofPosition {negative : Bool} {p : Nat} (h : p ≤ infinite) :
    magnitude (ofPosition negative p) = p := by
  have hp := lt_of_le_infinite h
  rw [magnitude, toNat_toBits_ofPosition h]
  split <;> omega

theorem isNegative_ofPosition {negative : Bool} {p : Nat} (h : p ≤ infinite) :
    isNegative (ofPosition negative p) = negative := by
  have hp := lt_of_le_infinite h
  rw [isNegative, toNat_toBits_ofPosition h]
  cases negative with
  | true => simp
  | false => simpa using hp

/-- A double is its sign and its position. -/
theorem ofPosition_magnitude (x : Float) : ofPosition (isNegative x) (magnitude x) = x := by
  have hx : x.toBits.toNat < 2 ^ 64 := x.toBits.toNat_lt
  have hbits : (if isNegative x then 2 ^ 63 + magnitude x else magnitude x) = x.toBits.toNat := by
    unfold isNegative magnitude
    by_cases h : 2 ^ 63 ≤ x.toBits.toNat
    · rw [if_pos (decide_eq_true h)]
      omega
    · rw [if_neg (by simpa using h)]
      omega
  rw [ofPosition, hbits, UInt64.ofNat_toNat, Float.ofBits_toBits]

theorem isNaN_unpack (b : Word) :
    (UnpackedFloat.unpack Format.binary64 b).isNaN = isNaNBits b := by
  simp only [UnpackedFloat.unpack, isNaNBits]
  split_ifs with hexponent hmantissa hzero hsub <;> simp_all [UnpackedFloat.isNaN]

theorem isNaN_iff {x : Float} : x.isNaN = true ↔ infinite < magnitude x := by
  have h : x.isNaN = @isNaNBits .binary64 x.toBits.toBitVec := isNaN_unpack _
  rw [h, isNaNBits_iff]
  rfl

/-- What is no number has no sign. -/
theorem isNegative_of_infinite_lt {x : Float} (h : infinite < magnitude x) :
    isNegative x = false := by
  rw [isNegative, toNat_toBits_of_infinite_lt h]
  rfl

theorem abs_of_not_isNegative {x : Float} (h : isNegative x = false) : abs x = x := by
  have hx := ofPosition_magnitude x
  rwa [h] at hx

theorem magnitude_abs (x : Float) : magnitude (abs x) = magnitude x := by
  by_cases h : infinite < magnitude x
  · rw [abs_of_not_isNegative (isNegative_of_infinite_lt h)]
  · exact magnitude_ofPosition (Nat.le_of_not_lt h)

theorem isNegative_abs (x : Float) : isNegative (abs x) = false := by
  by_cases h : infinite < magnitude x
  · have hx := isNegative_of_infinite_lt h
    rw [abs_of_not_isNegative hx, hx]
  · exact isNegative_ofPosition (Nat.le_of_not_lt h)

theorem isFinite_iff {x : Float} : isFinite x = true ↔ magnitude x < infinite :=
  decide_eq_true_iff

theorem isFinite_ofPosition {negative : Bool} {p : Nat} (h : p < infinite) :
    isFinite (ofPosition negative p) = true := by
  rwa [isFinite_iff, magnitude_ofPosition (Nat.le_of_lt h)]

end LinProg.Double
