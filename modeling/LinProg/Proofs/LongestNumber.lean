import LinProg.Proofs.Octets
import LinProg.Proofs.Sentence

/-!
# The longest number at the start of a text

The scanner reads a sign, digits, a point with digits behind it and an exponent, each as far as it
goes, and gives up an exponent without digits as a whole. What it has read is a number of the
grammar (`exists_number_of_scan`), and no number at the start of the text goes further
(`scan_text_append`). So a text reads as the double nearest to the longest number that it starts
with, whatever follows (`leadingNumber_longest`).
-/

namespace LinProg.Grammar

open Numeral (scanSign scanDigits scanFraction scanExponent scan)

/-! ## What is scanned is a number -/

theorem exists_sign (t : List Char) :
    ∃ s : Option Sign, isMinus s = (scanSign t).1 ∧ t = signText s ++ (scanSign t).2 := by
  fun_cases scanSign t with
  | case1 t => exact ⟨some .minus, rfl, rfl⟩
  | case2 t => exact ⟨some .plus, rfl, rfl⟩
  | case3 => exact ⟨none, rfl, rfl⟩

theorem exists_mantissa {t : List Char}
    (h : (scanDigits t).1 ≠ [] ∨ (scanFraction (scanDigits t).2).1 ≠ []) :
    ∃ m : Mantissa, m.whole = (scanDigits t).1 ∧
      m.places = (scanFraction (scanDigits t).2).1 ∧
      t = m.text ++ (scanFraction (scanDigits t).2).2 := by
  have hdigits (u : List Char) : AllDigits (scanDigits u).1 :=
    fun c hc => Numeral.isDigit_of_mem_scanDigits hc
  have hsplit := Numeral.scanDigits_append t
  revert h
  generalize (scanDigits t).2 = rest at hsplit ⊢
  fun_cases scanFraction rest with
  | case1 u =>
    intro h
    let m : Mantissa :=
      { whole := (scanDigits t).1
        fraction := some (scanDigits u).1
        isDigit_whole := hdigits t
        isDigit_fraction := by
          rintro f ⟨⟩
          exact hdigits u
        some_digit := h.imp_right fun hne => ⟨_, rfl, hne⟩ }
    have htext : m.text = (scanDigits t).1 ++ '.' :: (scanDigits u).1 := rfl
    refine ⟨m, rfl, rfl, ?_⟩
    rw [htext, List.append_assoc, List.cons_append, Numeral.scanDigits_append, hsplit]
  | case2 =>
    intro h
    let m : Mantissa :=
      { whole := (scanDigits t).1
        fraction := none
        isDigit_whole := hdigits t
        isDigit_fraction := by
          intro f hf
          cases hf
        some_digit := .inl (h.resolve_right (absurd rfl)) }
    have htext : m.text = (scanDigits t).1 := List.append_nil _
    exact ⟨m, rfl, rfl, by rw [htext, hsplit]⟩

/-- An exponent, if there is one, as that of a number with this sign and mantissa. -/
theorem exists_exponent (s : Option Sign) (m : Mantissa) (t : List Char) :
    ∃ n : Number, n.sign = s ∧ n.mantissa = m ∧ n.power = (scanExponent t).1 ∧
      t = n.exponentText ++ (scanExponent t).2 := by
  cases t with
  | nil => exact ⟨⟨s, m, none⟩, rfl, rfl, rfl, rfl⟩
  | cons c t =>
    obtain ⟨sign, hminus, hsign⟩ := exists_sign t
    have hdigits := Numeral.scanDigits_append (scanSign t).2
    simp only [scanExponent]
    split
    next h =>
      rw [Bool.and_eq_true, Bool.or_eq_true, beq_iff_eq, beq_iff_eq] at h
      let e : Exponent :=
        { upper := c == 'E'
          sign := sign
          digits := (scanDigits (scanSign t).2).1
          digits_ne_nil := by simpa using h.2
          isDigit_digits := fun d hd => Numeral.isDigit_of_mem_scanDigits hd }
      have htext : e.text = c :: (signText sign ++ e.digits) := by
        obtain rfl | rfl := h.1 <;> rfl
      refine ⟨⟨s, m, some e⟩, rfl, rfl, ?_, ?_⟩
      · rw [← hminus]
        rfl
      · calc c :: t = c :: (signText sign ++ (e.digits ++ (scanDigits (scanSign t).2).2)) := by
              rw [hdigits, ← hsign]
          _ = e.text ++ (scanDigits (scanSign t).2).2 := by
              rw [htext, List.cons_append, List.append_assoc]
    next => exact ⟨⟨s, m, none⟩, rfl, rfl, rfl, rfl⟩

theorem exists_number_of_scan {t rest : List Char} {k : Numeral} (h : scan t = some (k, rest)) :
    ∃ n : Number, n.numeral = k ∧ t = n.text ++ rest := by
  simp only [scan] at h
  split at h
  next => cases h
  next hsome =>
    obtain ⟨s, hminus, hsign⟩ := exists_sign t
    obtain ⟨m, hwhole, hplaces, hmantissa⟩ := exists_mantissa (t := (scanSign t).2) (by
      rw [Bool.not_eq_true, Bool.and_eq_false_iff] at hsome
      exact hsome.imp (by simp) (by simp))
    obtain ⟨n, rfl, rfl, hpower, hexponent⟩ :=
      exists_exponent s m (scanFraction (scanDigits (scanSign t).2).2).2
    obtain ⟨rfl, rfl⟩ := Prod.mk.inj (Option.some.inj h)
    refine ⟨n, ?_, ?_⟩
    · rw [Number.numeral, hminus, hwhole, hplaces, hpower]
    · rw [Number.text, List.append_assoc, List.append_assoc, ← hexponent, ← hmantissa, ← hsign]

/-! ## No number goes further -/

/-- What follows a mantissa may be taken for more of its digits, but its own are all read. -/
theorem scan_mantissa_append (m : Mantissa) (t : List Char) :
    ((scanDigits (m.text ++ t)).1 ≠ [] ∨ (scanFraction (scanDigits (m.text ++ t)).2).1 ≠ []) ∧
      (scanFraction (scanDigits (m.text ++ t)).2).2 <:+ t := by
  have hwhole : scanDigits (m.text ++ t) = (m.whole ++ (scanDigits (m.pointText ++ t)).1,
      (scanDigits (m.pointText ++ t)).2) := by
    rw [← Numeral.scanDigits_append_left m.isDigit_whole, Mantissa.text, List.append_assoc]
  rw [hwhole]
  obtain ⟨hpoint, hplaces⟩ | hpoint := m.pointText_cases
  · have hdigit : m.whole ≠ [] := m.some_digit_places.resolve_right (absurd hplaces)
    rw [hpoint, List.nil_append]
    exact ⟨.inl (List.append_ne_nil_of_left_ne_nil hdigit _),
      (Numeral.scanFraction_suffix _).trans (Numeral.scanDigits_suffix t)⟩
  · have hdigits : scanDigits ('.' :: (m.places ++ t)) = ([], '.' :: (m.places ++ t)) := rfl
    have hfraction : scanFraction ('.' :: (m.places ++ t)) =
        (m.places ++ (scanDigits t).1, (scanDigits t).2) :=
      Numeral.scanDigits_append_left m.isDigit_places t
    rw [hpoint, List.cons_append, hdigits, hfraction, List.append_nil]
    refine ⟨?_, Numeral.scanDigits_suffix t⟩
    exact m.some_digit_places.imp_right fun hne => List.append_ne_nil_of_left_ne_nil hne _

/-- A text that starts with a number is read at least as far as that. -/
theorem scan_text_append (n : Number) (t : List Char) :
    ∃ k rest, scan (n.text ++ t) = some (k, rest) ∧ rest <:+ t := by
  obtain ⟨s, m, exponent⟩ := n
  cases exponent with
  | none =>
    have htext : Number.text ⟨s, m, none⟩ ++ t = signText s ++ (m.text ++ t) := by
      simp [Number.text, Number.exponentText]
    obtain ⟨hdigit, hsuffix⟩ := scan_mantissa_append m t
    rw [htext]
    exact ⟨_, _, scan_signText s (m.ne_sign_of_mem_head? t) rfl rfl hdigit,
      (Numeral.scanExponent_suffix _).trans hsuffix⟩
  | some e =>
    have htext : Number.text ⟨s, m, some e⟩ ++ t = signText s ++ (m.text ++ (e.text ++ t)) := by
      simp [Number.text, Number.exponentText]
    -- The marker ends the mantissa, and the digits behind it are read with all that follow.
    have hmarker : ∀ c ∈ (e.text ++ t).head?, c.isDigit = false ∧ c ≠ '.' := by
      rintro c ⟨⟩
      cases e.upper <;> decide
    rw [htext]
    refine ⟨_, _, scan_mantissa m s hmarker, ?_⟩
    rw [e.scanExponent_append]
    exact Numeral.scanDigits_suffix t

/-! ## The longest number -/

namespace Number

/-- The text starts with the number and with no longer one. -/
def LongestIn (n : Number) (t : List Char) : Prop :=
  n.text <+: t ∧ ∀ m : Number, m.text <+: t → m.text.length ≤ n.text.length

variable {n m : Number} {t rest : List Char} {k : Numeral}

theorem exists_longestIn_of_scan (h : scan t = some (k, rest)) :
    ∃ n : Number, n.numeral = k ∧ t = n.text ++ rest ∧ n.LongestIn t := by
  obtain ⟨n, hn, ht⟩ := exists_number_of_scan h
  refine ⟨n, hn, ht, ⟨rest, ht.symm⟩, ?_⟩
  rintro m ⟨u, rfl⟩
  obtain ⟨k', rest', hscan, hsuffix⟩ := scan_text_append m u
  obtain ⟨-, rfl⟩ := Prod.mk.inj (Option.some.inj (h.symm.trans hscan))
  have hlength := congrArg List.length ht
  have hle := hsuffix.length_le
  rw [List.length_append, List.length_append] at hlength
  omega

theorem exists_longestIn (h : ∃ m : Number, m.text <+: t) : ∃ n : Number, n.LongestIn t := by
  obtain ⟨m, u, rfl⟩ := h
  obtain ⟨k, rest, hscan, -⟩ := scan_text_append m u
  obtain ⟨n, -, -, hn⟩ := exists_longestIn_of_scan hscan
  exact ⟨n, hn⟩

theorem LongestIn.text_eq (hn : n.LongestIn t) (hm : m.LongestIn t) : n.text = m.text := by
  have hprefix := List.prefix_of_prefix_length_le hn.1 hm.1 (hm.2 n hn.1)
  exact hprefix.eq_of_length_le (hn.2 m hm.1)

theorem numeral_eq_of_text_eq (h : n.text = m.text) : n.numeral = m.numeral := by
  have hscan := n.scan_text
  rw [h, m.scan_text] at hscan
  exact (Prod.mk.inj (Option.some.inj hscan)).1.symm

/-- The scanner finds the longest number. -/
theorem LongestIn.exists_scan (h : n.LongestIn t) : ∃ rest, scan t = some (n.numeral, rest) := by
  obtain ⟨u, rfl⟩ := h.1
  obtain ⟨k, rest, hscan, -⟩ := scan_text_append n u
  obtain ⟨m, rfl, -, hm⟩ := exists_longestIn_of_scan hscan
  exact ⟨rest, by rw [hscan, numeral_eq_of_text_eq (h.text_eq hm)]⟩

theorem ofText?_text (n : Number) : Numeral.ofText? n.text = some n.numeral := by
  rw [Numeral.ofText?, n.scan_text]

end Number

theorem not_isNaN_of_rounds {negative : Bool} {size : Rat} {x : Float}
    (h : Double.Rounds negative size x) : x.isNaN = false := by
  obtain ⟨p, -, hposition⟩ := h.position
  rw [Bool.eq_false_iff]
  intro hnan
  have hlt := Double.isNaN_iff.1 hnan
  omega

/-- Behind its blanks a text reads as the double nearest to the longest number that it starts with,
and as zero if it starts with none. What is scanned is this number and nothing else, and the result
is always a number. -/
theorem leadingNumber_longest (t : List Char) :
    ∃ b u, t = b ++ u ∧ Blank.AllBlank b ∧ (∀ c ∈ u.head?, Blank.isBlank c = false) ∧
      (∀ n : Number, n.LongestIn u →
        leadingNumber t = n.toFloat ∧ Double.Rounds (isMinus n.sign) n.size (leadingNumber t)) ∧
      ((∃ m : Number, m.text <+: u) → ∃ n : Number, n.LongestIn u) ∧
      ((¬ ∃ m : Number, m.text <+: u) → leadingNumber t = Double.zero) ∧
      (∀ k rest, scan u = some (k, rest) → ∃ n : Number, n.LongestIn u ∧ u = n.text ++ rest ∧
        Numeral.ofText? n.text = some k) ∧
      (leadingNumber t).isNaN = false := by
  obtain ⟨b, hb, ht⟩ := Blank.exists_eq_append_trimStart t
  have hlongest (n : Number) (hn : n.LongestIn (Blank.trimStart t)) :
      leadingNumber t = n.toFloat := by
    obtain ⟨rest, hscan⟩ := hn.exists_scan
    rw [leadingNumber, hscan]
    exact n.toFloat_numeral
  have hrounds (n : Number) (hn : n.LongestIn (Blank.trimStart t)) :
      Double.Rounds (isMinus n.sign) n.size (leadingNumber t) := by
    rw [hlongest n hn]
    exact Double.rounds_signed _ n.size_nonneg
  have hzero (hnone : ¬ ∃ m : Number, m.text <+: Blank.trimStart t) :
      leadingNumber t = Double.zero := by
    rw [leadingNumber]
    cases hscan : scan (Blank.trimStart t) with
    | none => rfl
    | some p =>
      obtain ⟨n, -, hu⟩ := exists_number_of_scan hscan
      exact absurd ⟨n, _, hu.symm⟩ hnone
  refine ⟨b, Blank.trimStart t, ht, hb, Blank.not_isBlank_head?_trimStart t,
    fun n hn => ⟨hlongest n hn, hrounds n hn⟩, Number.exists_longestIn, hzero, ?_, ?_⟩
  · intro k rest hscan
    obtain ⟨n, rfl, hu, hn⟩ := Number.exists_longestIn_of_scan hscan
    exact ⟨n, hn, hu, n.ofText?_text⟩
  · by_cases hsome : ∃ m : Number, m.text <+: Blank.trimStart t
    · obtain ⟨n, hn⟩ := Number.exists_longestIn hsome
      exact not_isNaN_of_rounds (hrounds n hn)
    · rw [hzero hsome]
      decide

/-- A second point and an exponent without digits are left over. -/
example :
    scan "1.5.2".toList = some (⟨false, ['1'], ['5'], 0⟩, ".2".toList) ∧
    scan "-.5e+".toList = some (⟨true, [], ['5'], 0⟩, "e+".toList) ∧ scan ".e5".toList = none := by
  decide

end LinProg.Grammar
