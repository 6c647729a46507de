import LinProg.NumberText
import LinProg.Proofs.DoubleBits
import LinProg.Proofs.PlainDecimal

/-!
# Reading the shortest decimal back

The text of a finite double reads back as this double, bit for bit (`leadingNumber_text`). For a
decimal that was cut to a length this is what the search for it tested; for the full expansion it
holds because a double is nearest to itself, and no expansion is as long or as short as numerals
that count as infinity or as zero.

Infinity and what is no number have texts that do not begin with a numeral.
-/

namespace LinProg

namespace Double

theorem roundsUp_mul_right (num den p : Nat) {k : Nat} (hk : 0 < k) :
    roundsUp (num * k) (den * k) p = roundsUp num den p := by
  have htwice : 2 * (num * k * one) = 2 * (num * one) * k := by
    rw [Nat.mul_right_comm num k, ← Nat.mul_assoc]
  have hmiddle : den * k * (units p + units (p + 1)) = den * (units p + units (p + 1)) * k :=
    Nat.mul_right_comm ..
  have hbeq : ∀ a b : Nat, (a * k == b * k) = (a == b) := by
    intro a b
    rw [Bool.eq_iff_iff, beq_iff_eq, beq_iff_eq]
    exact Nat.mul_right_cancel_iff hk
  simp only [roundsUp, htwice, hmiddle, Nat.mul_lt_mul_right hk, hbeq]

theorem nearest_mul_right (num den : Nat) {k : Nat} (hk : 0 < k) :
    nearest (num * k) (den * k) = nearest num den := by
  have hquotient : num * k * one / (den * k) = num * one / den := by
    rw [Nat.mul_right_comm, Nat.mul_div_mul_right _ _ hk]
  simp only [nearest, hquotient, roundsUp_mul_right num den _ hk]

theorem units_pos {p : Nat} (h : p ≠ 0) : 0 < units p := by
  obtain ⟨q, rfl⟩ := Nat.exists_eq_succ_of_ne_zero h
  exact Nat.lt_of_le_of_lt (Nat.zero_le _) (units_lt_succ q)

theorem units_lt (p : Nat) : units p < 2 ^ (53 + p / 2 ^ 52) := by
  by_cases hp : p < 2 ^ 53
  · rw [units_of_lt hp]
    exact Nat.lt_of_lt_of_le hp (Nat.pow_le_pow_right (by omega) (Nat.le_add_right ..))
  · obtain ⟨k, f, hf, rfl⟩ := exists_step (show 2 ^ 52 ≤ p by omega)
    rw [units_step k hf]
    calc
      (2 ^ 52 + f) * 2 ^ k < 2 ^ 53 * 2 ^ k :=
        Nat.mul_lt_mul_of_pos_right (by omega) (Nat.two_pow_pos k)
      _ = 2 ^ (53 + k) := (Nat.pow_add 2 53 k).symm
      _ ≤ _ := Nat.pow_le_pow_right (by omega) (by omega)

end Double

namespace Decimal

theorem pow_mul_le_pow_mul {a b i j : Nat} (h : a ^ i ≤ b ^ j) (n : Nat) :
    a ^ (i * n) ≤ b ^ (j * n) := by
  rw [Nat.pow_mul, Nat.pow_mul]
  exact Nat.pow_le_pow_left h n

theorem ten_pow_eq (n : Nat) : 10 ^ n = 2 ^ n * 5 ^ n := Nat.mul_pow 2 5 n

theorem exact_lt {p n : Nat} (hn : 53 + p / 2 ^ 52 ≤ 8 * n + Double.finest) :
    Double.units p * 5 ^ Double.finest < 10 ^ (3 * n + Double.finest) := by
  have hunits : Double.units p < 10 ^ (3 * n) * 2 ^ Double.finest := by
    calc
      Double.units p < 2 ^ (53 + p / 2 ^ 52) := Double.units_lt p
      _ ≤ 2 ^ (8 * n + Double.finest) := Nat.pow_le_pow_right (by omega) hn
      _ = 2 ^ (8 * n) * 2 ^ Double.finest := Nat.pow_add ..
      _ ≤ 10 ^ (3 * n) * 2 ^ Double.finest :=
        Nat.mul_le_mul_right _ (pow_mul_le_pow_mul (by decide) n)
  rw [Nat.pow_add, ten_pow_eq Double.finest, ← Nat.mul_assoc]
  exact Nat.mul_lt_mul_of_pos_right hunits (Nat.pow_pos (by omega))

theorem le_exact {p n : Nat} (h : p ≠ 0) (hn : 3 * n ≤ Double.finest) :
    10 ^ (2 * n) ≤ Double.units p * 5 ^ Double.finest := by
  calc
    10 ^ (2 * n) ≤ 5 ^ (3 * n) := pow_mul_le_pow_mul (by decide) n
    _ ≤ 5 ^ Double.finest := Nat.pow_le_pow_right (by omega) hn
    _ ≤ Double.units p * 5 ^ Double.finest := Nat.le_mul_of_pos_left _ (Double.units_pos h)

theorem coefficient_exact {p : Nat} {w f : List Char} (hs : (exact p).Splits w f) :
    (⟨false, w, f, 0⟩ : Numeral).coefficient = Double.units p * 5 ^ Double.finest := by
  have hzero : (exact p).exponent.toNat = 0 := by
    simp only [exact]
    omega
  have hvalue := hs.coefficient
  rw [hzero, Nat.pow_zero, Nat.mul_one] at hvalue
  exact hvalue

theorem scale_exact {p : Nat} {w f : List Char} (hs : (exact p).Splits w f) :
    (⟨false, w, f, 0⟩ : Numeral).scale = -Double.finest := by
  simp only [Numeral.scale, hs.places, exact]
  omega

theorem nearest_exact {p : Nat} (h : p ≤ Double.infinite) :
    Double.nearest (Double.units p * 5 ^ Double.finest) (10 ^ Double.finest) = p := by
  rw [ten_pow_eq, Double.nearest_mul_right _ _ (Nat.pow_pos (by omega))]
  exact Double.nearest_units h

/-- The full expansion reads back: it is neither too long nor too short to count. -/
theorem position_exact {p : Nat} {w f : List Char} (hp : p ≠ 0) (h : p < Double.infinite)
    (hs : (exact p).Splits w f) : (⟨false, w, f, 0⟩ : Numeral).position = p := by
  have hdigits : AllDigits (⟨false, w, f, 0⟩ : Numeral).digits := hs.whole.append hs.fraction
  have hcoefficient := coefficient_exact hs
  have hscale := scale_exact hs
  obtain ⟨k, hk, hk'⟩ : ∃ k, 3 * k ≤ Double.finest ∧ 700 ≤ 2 * k := ⟨358, by decide, by decide⟩
  have hlower := Numeral.lt_order hdigits (by rw [hcoefficient]; exact le_exact hp hk)
  obtain ⟨m, hm, hm'⟩ : ∃ m, 53 + p / 2 ^ 52 ≤ 8 * m + Double.finest ∧ 3 * m ≤ 390 := by
    refine ⟨129, ?_, by decide⟩
    unfold Double.infinite at h
    unfold Double.finest
    omega
  have hupper := Numeral.order_le hdigits (by rw [hcoefficient]; exact exact_lt hm)
  have hfinest : Double.finest = 1074 := rfl
  have hreach : Numeral.reach = 400 := rfl
  have hnonzero : Double.units p * 5 ^ Double.finest ≠ 0 :=
    Nat.ne_of_gt (Nat.mul_pos (Double.units_pos hp) (Nat.pow_pos (by omega)))
  have hwhole : (-(Double.finest : Int)).toNat = 0 := by omega
  have hplaces : (- -(Double.finest : Int)).toNat = Double.finest := by omega
  rw [Numeral.position, hcoefficient, hscale, if_neg hnonzero, if_neg (by omega),
    if_neg (by omega), hwhole, hplaces, Nat.pow_zero, Nat.mul_one]
  exact nearest_exact (Nat.le_of_lt h)

theorem exists_plain_eq_cons (d : Decimal) : ∃ c t, d.plain = c :: t ∧ c.isDigit = true := by
  obtain ⟨w, f, hd⟩ := d.exists_splits
  obtain ⟨c, w, rfl⟩ := List.exists_cons_of_ne_nil hd.whole_ne_nil
  exact ⟨c, _, hd.plain_eq, hd.whole c List.mem_cons_self⟩

theorem exists_plain_eq_concat (d : Decimal) :
    ∃ t c, d.plain = t ++ [c] ∧ c.isDigit = true := by
  obtain ⟨w, f, hd⟩ := d.exists_splits
  rw [hd.plain_eq]
  by_cases hf : f = []
  · refine ⟨w.dropLast, w.getLast hd.whole_ne_nil, ?_, hd.whole _ (List.getLast_mem _)⟩
    rw [pointFraction, if_pos hf, List.append_nil, List.dropLast_concat_getLast]
  · refine ⟨w ++ '.' :: f.dropLast, f.getLast hf, ?_, hd.fraction _ (List.getLast_mem _)⟩
    rw [pointFraction, if_neg hf, List.append_assoc, List.cons_append,
      List.dropLast_concat_getLast]

theorem readsAs_eq {p : Nat} {d : Decimal} {w f : List Char} (hs : d.Splits w f) :
    readsAs p d = ((⟨false, w, f, 0⟩ : Numeral).position == p) := by
  obtain ⟨c, t, hd, hc⟩ := d.exists_plain_eq_cons
  have hsign : Numeral.scanSign d.plain = (false, w ++ pointFraction f) := by
    rw [← hs.plain_eq, hd]
    exact Numeral.scanSign_of_isDigit hc
  have hscan := Numeral.scan_of_scanSign hs.whole hs.whole_ne_nil hs.fraction hsign
  simp only [readsAs, Numeral.ofText?, hscan]
  rfl

theorem readsAs_exact {p : Nat} (hp : p ≠ 0) (h : p < Double.infinite) :
    readsAs p (exact p) = true := by
  obtain ⟨w, f, hs⟩ := exists_splits (exact p)
  rw [readsAs_eq hs, beq_iff_eq]
  exact position_exact hp h hs

theorem readsAs_shortest (tie : Tie) {p : Nat} (h : p < Double.infinite) :
    readsAs p (shortest tie p) = true := by
  unfold shortest
  split
  next hp =>
    subst hp
    decide
  next hp =>
    cases hsearch : (List.range' 1 17).findSome? (ofLength? tie p) with
    | none => exact readsAs_exact hp h
    | some d =>
      obtain ⟨n, -, hn⟩ := List.exists_of_findSome?_eq_some hsearch
      exact List.find?_some hn

end Decimal

theorem trimStart_of_not_isBlank {c : Char} {t : List Char} (h : Blank.isBlank c = false) :
    Blank.trimStart (c :: t) = c :: t :=
  List.dropWhile_cons_of_neg (by simp [h])

theorem leadingNumber_of_readsAs {t : List Char} {negative : Bool} {d : Decimal} {p : Nat}
    (hb : Blank.trimStart t = t) (hs : Numeral.scanSign t = (negative, d.plain))
    (h : d.readsAs p = true) : leadingNumber t = Double.ofPosition negative p := by
  obtain ⟨w, f, hd⟩ := d.exists_splits
  rw [hd.plain_eq] at hs
  rw [Decimal.readsAs_eq hd, beq_iff_eq] at h
  rw [leadingNumber, hb, Numeral.scan_of_scanSign hd.whole hd.whole_ne_nil hd.fraction hs]
  subst h
  rfl

namespace Double

/-- A text is the text of the size, behind a minus where the sign is negative. -/
theorem text_eq (x : Float) :
    text x = if isNegative x then '-' :: text (abs x) else text (abs x) := by
  by_cases h : infinite < magnitude x
  · simp [text, signedText, magnitude_abs, h, isNegative_of_infinite_lt h]
  · simp only [text, signedText, magnitude_abs, isNegative_abs, if_neg h]
    rfl

theorem text_abs_of_isFinite {x : Float} (h : isFinite x = true) :
    text (abs x) = (Decimal.shortest .up (magnitude x)).plain := by
  have hlt := isFinite_iff.1 h
  rw [text, signedText, magnitude_abs, isNegative_abs, if_neg (Nat.lt_asymm hlt),
    if_neg (Nat.ne_of_lt hlt)]
  rfl

theorem text_abs_of_not_isFinite {x : Float} (h : isFinite x = false) :
    text (abs x) = "inf".toList ∨ text (abs x) = "NaN".toList := by
  have hle : infinite ≤ magnitude x := by simpa [isFinite] using h
  by_cases hlt : infinite < magnitude x
  · right
    rw [text, signedText, magnitude_abs, if_pos hlt]
  · left
    rw [text, signedText, magnitude_abs, isNegative_abs, if_neg hlt,
      if_pos (Nat.le_antisymm (Nat.le_of_not_lt hlt) hle)]
    rfl

def signChar (x : Float) : Char := if isNegative x then '-' else '+'

/-- Behind its sign the text of a finite double reads back. -/
theorem leadingNumber_signChar_cons {x : Float} (h : isFinite x = true) :
    leadingNumber (signChar x :: text (abs x)) = x := by
  have hreads := Decimal.readsAs_shortest .up (isFinite_iff.1 h)
  have hblank : Blank.isBlank (signChar x) = false := by
    unfold signChar
    split <;> rfl
  have hsign : ∀ t, Numeral.scanSign (signChar x :: t) = (isNegative x, t) := by
    intro t
    unfold signChar
    cases isNegative x <;> rfl
  rw [text_abs_of_isFinite h, leadingNumber_of_readsAs (trimStart_of_not_isBlank hblank)
    (hsign _) hreads, ofPosition_magnitude]

theorem leadingNumber_text {x : Float} (h : isFinite x = true) : leadingNumber (text x) = x := by
  rw [text_eq]
  cases hn : isNegative x with
  | true =>
    have hsigned := leadingNumber_signChar_cons h
    rw [signChar, hn] at hsigned
    exact hsigned
  | false =>
    have hreads := Decimal.readsAs_shortest .up (isFinite_iff.1 h)
    obtain ⟨c, t, hd, hc⟩ := (Decimal.shortest .up (magnitude x)).exists_plain_eq_cons
    have hblank := trimStart_of_not_isBlank (t := t) (Blank.not_isBlank_of_isDigit hc)
    have hsign := Numeral.scanSign_of_isDigit (t := t) hc
    rw [← hd] at hblank hsign
    have hx := ofPosition_magnitude x
    rw [hn] at hx
    rw [if_neg Bool.false_ne_true, text_abs_of_isFinite h]
    exact (leadingNumber_of_readsAs hblank hsign hreads).trans hx

theorem leadingNumber_text_of_not_isFinite {x : Float} (h : isFinite x = false) :
    leadingNumber (text x) = zero := by
  rw [text_eq]
  rcases text_abs_of_not_isFinite h with ht | ht
  · rw [ht]
    split <;> rfl
  · rw [ht]
    split <;> rfl

end Double

end LinProg
