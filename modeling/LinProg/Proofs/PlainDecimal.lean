import LinProg.ShortestDecimal

/-!
# Decimals without an exponent

A decimal written without an exponent is a numeral without a sign: digits, and behind a point more
digits or nothing (`Decimal.exists_splits`). Scanning the text finds just these digits, and a sign
before them is taken for the sign of the numeral.

The order of such a numeral bounds its coefficient on both sides.
-/

namespace LinProg

theorem takeWhile_append_of_head? {α : Type} {p : α → Bool} {l r : List α}
    (hl : ∀ a ∈ l, p a = true) (hr : ∀ a ∈ r.head?, p a = false) : (l ++ r).takeWhile p = l := by
  rw [List.takeWhile_append_of_pos hl]
  cases r with
  | nil => simp
  | cons a r => simp [hr a rfl]

theorem dropWhile_append_of_head? {α : Type} {p : α → Bool} {l r : List α}
    (hl : ∀ a ∈ l, p a = true) (hr : ∀ a ∈ r.head?, p a = false) : (l ++ r).dropWhile p = r := by
  rw [List.dropWhile_append_of_pos hl]
  cases r with
  | nil => rfl
  | cons a r => simp [hr a rfl]

theorem isDigit_iff {c : Char} : c.isDigit = true ↔ 48 ≤ c.toNat ∧ c.toNat ≤ 57 := by
  simp only [Char.isDigit, Bool.and_eq_true, decide_eq_true_eq, ge_iff_le,
    UInt32.le_iff_toNat_le]
  rfl

def AllDigits (t : List Char) : Prop := ∀ c ∈ t, c.isDigit = true

theorem AllDigits.append {s t : List Char} (hs : AllDigits s) (ht : AllDigits t) :
    AllDigits (s ++ t) :=
  List.forall_mem_append.2 ⟨hs, ht⟩

theorem allDigits_toDigits (n : Nat) : AllDigits (Nat.toDigits 10 n) :=
  fun _ h => Nat.isDigit_of_mem_toDigits (by omega) (by omega) h

theorem allDigits_zeros (n : Nat) : AllDigits (Decimal.zeros n) := by
  intro c hc
  rw [(List.mem_replicate.1 hc).2]
  decide

/-- A point and the digits behind it, if there are any. -/
def pointFraction (f : List Char) : List Char := if f = [] then [] else '.' :: f

namespace Numeral

/-- Digits are read with those that follow. -/
theorem scanDigits_append_left {ds : List Char} (hd : AllDigits ds) (t : List Char) :
    scanDigits (ds ++ t) = (ds ++ (scanDigits t).1, (scanDigits t).2) := by
  rw [scanDigits, List.takeWhile_append_of_pos hd, List.dropWhile_append_of_pos hd]
  rfl

theorem scanDigits_append_of_allDigits {ds rest : List Char} (hd : AllDigits ds)
    (hr : ∀ c ∈ rest.head?, c.isDigit = false) : scanDigits (ds ++ rest) = (ds, rest) := by
  rw [scanDigits, takeWhile_append_of_head? hd hr, dropWhile_append_of_head? hd hr]

theorem scanFraction_pointFraction {f : List Char} (hf : AllDigits f) :
    scanFraction (pointFraction f) = (f, []) := by
  by_cases h : f = []
  · rw [h]
    rfl
  · rw [pointFraction, if_neg h]
    have hscan : scanDigits (f ++ []) = (f, []) := scanDigits_append_of_allDigits hf nofun
    rwa [List.append_nil] at hscan

theorem scan_of_scanSign {t w f : List Char} {negative : Bool} (hw : AllDigits w) (hne : w ≠ [])
    (hf : AllDigits f) (hs : scanSign t = (negative, w ++ pointFraction f)) :
    scan t = some (⟨negative, w, f, 0⟩, []) := by
  have hpoint : ∀ c ∈ (pointFraction f).head?, c.isDigit = false := by
    unfold pointFraction
    split
    · simp
    · simp
  have hempty : (w.isEmpty && f.isEmpty) = false := by simp [hne]
  simp only [scan, hs, scanDigits_append_of_allDigits hw hpoint, scanFraction_pointFraction hf,
    hempty, scanExponent]
  rfl

theorem scanSign_of_head? {t : List Char} (h : ∀ c ∈ t.head?, c ≠ '+' ∧ c ≠ '-') :
    scanSign t = (false, t) := by
  unfold scanSign
  split
  next => exact absurd rfl (h _ rfl).2
  next => exact absurd rfl (h _ rfl).1
  next => rfl

theorem ne_sign_of_isDigit {c : Char} (h : c.isDigit = true) : c ≠ '+' ∧ c ≠ '-' := by
  constructor <;>
  · rintro rfl
    cases h

/-- A text that begins with a digit has no sign. -/
theorem scanSign_of_isDigit {c : Char} {t : List Char} (h : c.isDigit = true) :
    scanSign (c :: t) = (false, c :: t) :=
  scanSign_of_head? (by rintro d ⟨⟩; exact ne_sign_of_isDigit h)

end Numeral

namespace Decimal

/-- The digits before and behind the point of a decimal written without an exponent. -/
structure Splits (d : Decimal) (w f : List Char) : Prop where
  plain_eq : d.plain = w ++ pointFraction f
  whole : AllDigits w
  whole_ne_nil : w ≠ []
  fraction : AllDigits f
  coefficient : Nat.ofDigitChars 10 (w ++ f) 0 = d.coefficient * 10 ^ d.exponent.toNat
  places : f.length = (-d.exponent).toNat

theorem exists_pointed {places : Nat} {ds : List Char} (hp : 0 < places) (hd : AllDigits ds) :
    ∃ w f, pointed places ds = w ++ pointFraction f ∧ AllDigits (w ++ f) ∧ w ≠ [] ∧
      w ++ f = zeros (places + 1 - ds.length) ++ ds ∧ f.length = places := by
  let padded := zeros (places + 1 - ds.length) ++ ds
  have hlength : places + 1 ≤ padded.length := by
    simp only [padded, zeros, List.length_append, List.length_replicate]
    omega
  let w := padded.take (padded.length - places)
  let f := padded.drop (padded.length - places)
  have hwhole : w ≠ [] := by
    simp only [w, ne_eq, List.take_eq_nil_iff]
    rintro (h | h)
    · omega
    · simp [h] at hlength
  have hplaces : f.length = places := by
    rw [List.length_drop]
    omega
  have hfraction : f ≠ [] := by
    rintro h
    simp [h] at hplaces
    omega
  have hall : w ++ f = padded := List.take_append_drop ..
  refine ⟨w, f, ?_, ?_, hwhole, hall, hplaces⟩
  · rw [pointFraction, if_neg hfraction]
    rfl
  · rw [hall]
    exact (allDigits_zeros _).append hd

theorem exists_splits (d : Decimal) : ∃ w f, d.Splits w f := by
  have hdigits := allDigits_toDigits d.coefficient
  by_cases h : 0 ≤ d.exponent
  · refine ⟨Nat.toDigits 10 d.coefficient ++ zeros d.exponent.toNat, [], ?_⟩
    constructor
    · rw [plain, if_pos h]
      simp [pointFraction]
    · exact hdigits.append (allDigits_zeros _)
    · simp [Nat.toDigits_ne_nil]
    · simp [AllDigits]
    · rw [List.append_nil, Nat.ofDigitChars_append, Nat.ofDigitChars_ten_toDigits, zeros,
        Nat.ofDigitChars_replicate_zero, Nat.mul_comm]
    · simp
      omega
  · have hplaces : 0 < (-d.exponent).toNat := by omega
    obtain ⟨w, f, hplain, hall, hne, hcut, hlength⟩ := exists_pointed hplaces hdigits
    refine ⟨w, f, ?_, ?_, hne, ?_, ?_, hlength⟩
    · rw [plain, if_neg h, hplain]
    · exact fun c hc => hall c (List.mem_append_left _ hc)
    · exact fun c hc => hall c (List.mem_append_right _ hc)
    · have hexponent : d.exponent.toNat = 0 := by omega
      rw [hcut, Nat.ofDigitChars_append, zeros, Nat.ofDigitChars_replicate_zero,
        Nat.mul_zero, Nat.ofDigitChars_ten_toDigits, hexponent, Nat.pow_zero, Nat.mul_one]

end Decimal

namespace Numeral

theorem digit_bounds {c : Char} (h : c.isDigit = true) :
    c.toNat - '0'.toNat < 10 ∧ (c ≠ '0' → 0 < c.toNat - '0'.toNat) := by
  obtain ⟨hlow, hhigh⟩ := isDigit_iff.1 h
  have hzero : '0'.toNat = 48 := rfl
  refine ⟨by omega, ?_⟩
  intro hne
  have : c.toNat ≠ 48 := fun h48 => hne (Char.ext (UInt32.toNat_inj.1 h48))
  omega

theorem le_ofDigitChars (ds : List Char) (init : Nat) :
    init * 10 ^ ds.length ≤ Nat.ofDigitChars 10 ds init := by
  rw [Nat.ofDigitChars_eq_ofDigitChars_zero, Nat.mul_comm]
  exact Nat.le_add_right ..

theorem ofDigitChars_lt {ds : List Char} (hd : AllDigits ds) (init : Nat) :
    Nat.ofDigitChars 10 ds init < (init + 1) * 10 ^ ds.length := by
  induction ds generalizing init with
  | nil => simp
  | cons c ds ih =>
    obtain ⟨hc, hds⟩ := List.forall_mem_cons.1 hd
    have hdigit := (digit_bounds hc).1
    have hstep := ih hds (10 * init + (c.toNat - '0'.toNat))
    have hnext : 10 * init + (c.toNat - '0'.toNat) + 1 ≤ (init + 1) * 10 := by omega
    calc
      Nat.ofDigitChars 10 (c :: ds) init
          < (10 * init + (c.toNat - '0'.toNat) + 1) * 10 ^ ds.length := by
            rwa [Nat.ofDigitChars_cons]
      _ ≤ (init + 1) * 10 * 10 ^ ds.length := Nat.mul_le_mul_right _ hnext
      _ = (init + 1) * 10 ^ (c :: ds).length := by
            rw [List.length_cons, Nat.pow_succ', Nat.mul_assoc]

theorem ofDigitChars_dropWhile (ds : List Char) :
    Nat.ofDigitChars 10 (ds.dropWhile (· == '0')) 0 = Nat.ofDigitChars 10 ds 0 := by
  induction ds with
  | nil => rfl
  | cons c ds ih =>
    by_cases hc : c = '0'
    · subst hc
      rw [List.dropWhile_cons_of_pos rfl, ih, Nat.ofDigitChars_cons]
      rfl
    · rw [List.dropWhile_cons_of_neg (by simpa using hc)]

/-- The number of digits from the first on that is not zero. -/
def size (n : Numeral) : Nat := (n.digits.dropWhile (· == '0')).length

theorem coefficient_lt {n : Numeral} (hd : AllDigits n.digits) : n.coefficient < 10 ^ n.size := by
  have hall : AllDigits (n.digits.dropWhile (· == '0')) :=
    fun c hc => hd c ((List.dropWhile_sublist _).subset hc)
  have hlt := ofDigitChars_lt hall 0
  rwa [ofDigitChars_dropWhile, Nat.zero_add, Nat.one_mul] at hlt

theorem le_coefficient {n : Numeral} (hd : AllDigits n.digits) (hn : n.size ≠ 0) :
    10 ^ (n.size - 1) ≤ n.coefficient := by
  unfold size at hn ⊢
  rw [coefficient, ← ofDigitChars_dropWhile]
  cases hdrop : n.digits.dropWhile (· == '0') with
  | nil => simp [hdrop] at hn
  | cons c ds =>
    have hc : c.isDigit = true := by
      apply hd
      apply (List.dropWhile_sublist (· == '0')).subset
      rw [hdrop]
      exact List.mem_cons_self
    have hne : c ≠ '0' := by
      have hhead := List.head?_dropWhile_not (· == '0') n.digits
      simpa [hdrop] using hhead
    have hdigit := (digit_bounds hc).2 hne
    rw [Nat.ofDigitChars_cons, List.length_cons, Nat.add_sub_cancel]
    refine Nat.le_trans ?_ (le_ofDigitChars ds _)
    exact Nat.le_mul_of_pos_left _ (by omega)

theorem order_le {n : Numeral} {k : Nat} (hd : AllDigits n.digits) (h : n.coefficient < 10 ^ k) :
    n.order ≤ k + n.scale := by
  have horder : n.order = n.size + n.scale := rfl
  by_cases hn : n.size = 0
  · omega
  · have hlt := Nat.lt_of_le_of_lt (le_coefficient hd hn) h
    have hsize : n.size - 1 < k := (Nat.pow_lt_pow_iff_right (by omega)).1 hlt
    omega

theorem lt_order {n : Numeral} {k : Nat} (hd : AllDigits n.digits) (h : 10 ^ k ≤ n.coefficient) :
    k + n.scale < n.order := by
  have horder : n.order = n.size + n.scale := rfl
  have hlt := Nat.lt_of_le_of_lt h (coefficient_lt hd)
  have hsize : k < n.size := (Nat.pow_lt_pow_iff_right (by omega)).1 hlt
  omega

end Numeral

end LinProg
