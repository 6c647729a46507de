import LinProg.Proofs.NumeralRounding
import LinProg.Proofs.SpacedText
import LinProg.Proofs.TextCharacters

/-!
# Numbers as the grammar has them

A number is an optional sign, digits with an optional point before, among or behind them, and an
optional exponent. Each of its parts holds what the grammar asks of it, so that every value of these
types can be written, and what is written reads as the double nearest to the number
(`leadingNumber_text`).
-/

namespace LinProg.Grammar

inductive Sign where
  | plus
  | minus
deriving DecidableEq

def Sign.char : Sign → Char
  | .plus => '+'
  | .minus => '-'

def signText (s : Option Sign) : List Char := (s.map Sign.char).toList

def isMinus (s : Option Sign) : Bool := s == some .minus

/-- Digits, digits behind which a point stands and perhaps more digits, or digits behind a point. -/
structure Mantissa where
  whole : List Char
  fraction : Option (List Char)
  isDigit_whole : AllDigits whole
  isDigit_fraction : ∀ f ∈ fraction, AllDigits f
  some_digit : whole ≠ [] ∨ ∃ f ∈ fraction, f ≠ []

namespace Mantissa

/-- The point, if there is one, and what stands behind it. -/
def pointText (m : Mantissa) : List Char :=
  match m.fraction with
  | none => []
  | some f => '.' :: f

def text (m : Mantissa) : List Char := m.whole ++ m.pointText

/-- The digits behind the point. -/
def places (m : Mantissa) : List Char := m.fraction.getD []

def value (m : Mantissa) : Rat :=
  Nat.ofDigitChars 10 (m.whole ++ m.places) 0 / (10 : Rat) ^ m.places.length

end Mantissa

structure Exponent where
  upper : Bool
  sign : Option Sign
  digits : List Char
  digits_ne_nil : digits ≠ []
  isDigit_digits : AllDigits digits

namespace Exponent

def text (e : Exponent) : List Char :=
  (if e.upper then 'E' else 'e') :: (signText e.sign ++ e.digits)

def value (e : Exponent) : Int :=
  if isMinus e.sign then -Nat.ofDigitChars 10 e.digits 0 else Nat.ofDigitChars 10 e.digits 0

end Exponent

structure Number where
  sign : Option Sign
  mantissa : Mantissa
  exponent : Option Exponent

namespace Number

def exponentText (n : Number) : List Char :=
  match n.exponent with
  | none => []
  | some e => e.text

def text (n : Number) : List Char := signText n.sign ++ (n.mantissa.text ++ n.exponentText)

/-- The power of ten that the mantissa is multiplied by. -/
def power (n : Number) : Int :=
  match n.exponent with
  | none => 0
  | some e => e.value

/-- The number without its sign. -/
def size (n : Number) : Rat := n.mantissa.value * (10 : Rat) ^ n.power

/-- The double nearest to the number, which keeps the sign of a zero. -/
def toFloat (n : Number) : Float := Double.signed (isMinus n.sign) n.size

/-- The number as its digits. -/
def numeral (n : Number) : Numeral :=
  ⟨isMinus n.sign, n.mantissa.whole, n.mantissa.places, n.power⟩

end Number

theorem Mantissa.isDigit_places (m : Mantissa) : AllDigits m.places := by
  unfold places
  cases hf : m.fraction with
  | none => exact List.forall_mem_nil _
  | some f => exact m.isDigit_fraction f hf

theorem Number.value_numeral (n : Number) : n.numeral.value = n.size := by
  have hten : (10 : Rat) ≠ 0 := by norm_num
  simp only [Numeral.value, Numeral.coefficient, Numeral.digits, Numeral.scale, numeral, size,
    Mantissa.value]
  rw [zpow_sub₀ hten, zpow_natCast]
  ring

theorem Number.toFloat_numeral (n : Number) : n.numeral.toFloat = n.toFloat := by
  have hdigits : AllDigits n.numeral.digits :=
    n.mantissa.isDigit_whole.append n.mantissa.isDigit_places
  rw [Numeral.toFloat_eq hdigits, n.value_numeral]
  rfl

theorem scanSign_signText (s : Option Sign) {t : List Char}
    (h : ∀ c ∈ t.head?, c ≠ '+' ∧ c ≠ '-') :
    Numeral.scanSign (signText s ++ t) = (isMinus s, t) := by
  cases s with
  | some s => cases s <;> rfl
  | none => exact Numeral.scanSign_of_head? h

/-- What is scanned behind a sign, if there is a digit. -/
theorem scan_signText (s : Option Sign) {t u v w f : List Char}
    (hsign : ∀ c ∈ t.head?, c ≠ '+' ∧ c ≠ '-') (hwhole : Numeral.scanDigits t = (w, u))
    (hfraction : Numeral.scanFraction u = (f, v)) (hdigit : w ≠ [] ∨ f ≠ []) :
    Numeral.scan (signText s ++ t) =
      some (⟨isMinus s, w, f, (Numeral.scanExponent v).1⟩, (Numeral.scanExponent v).2) := by
  have hsome : (w.isEmpty && f.isEmpty) = false := by
    rw [Bool.and_eq_false_iff]
    exact hdigit.imp (by simp) (by simp)
  simp only [Numeral.scan, scanSign_signText s hsign, hwhole, hfraction, hsome]
  rfl

theorem Mantissa.pointText_cases (m : Mantissa) :
    m.pointText = [] ∧ m.places = [] ∨ m.pointText = '.' :: m.places := by
  unfold pointText places
  cases m.fraction with
  | none => exact .inl ⟨rfl, rfl⟩
  | some f => exact .inr rfl

theorem isDigit_or_eq_point_of_mem_text {m : Mantissa} {c : Char} (h : c ∈ m.text) :
    c.isDigit = true ∨ c = '.' := by
  rw [Mantissa.text, List.mem_append] at h
  rcases h with h | h
  · exact .inl (m.isDigit_whole c h)
  · rcases m.pointText_cases with ⟨hp, -⟩ | hp
    · rw [hp] at h
      cases h
    · rw [hp] at h
      rcases List.mem_cons.1 h with rfl | h
      · exact .inr rfl
      · exact .inl (m.isDigit_places c h)

theorem ne_sign_of_mem_text {m : Mantissa} {c : Char} (h : c ∈ m.text) : c ≠ '+' ∧ c ≠ '-' := by
  rcases isDigit_or_eq_point_of_mem_text h with hc | rfl
  · exact Numeral.ne_sign_of_isDigit hc
  · decide

theorem Mantissa.some_digit_places (m : Mantissa) : m.whole ≠ [] ∨ m.places ≠ [] := by
  rcases m.some_digit with h | ⟨f, hf, hne⟩
  · exact .inl h
  · exact .inr (by rwa [places, Option.mem_def.1 hf])

theorem Mantissa.text_ne_nil (m : Mantissa) : m.text ≠ [] := by
  intro h
  obtain ⟨hwhole, hpoint⟩ := List.append_eq_nil_iff.1 h
  rcases m.some_digit_places with hne | hne
  · exact hne hwhole
  · rcases m.pointText_cases with ⟨-, hp⟩ | hp
    · exact hne hp
    · rw [hp] at hpoint
      cases hpoint

/-- No sign stands at the start of a mantissa. -/
theorem Mantissa.ne_sign_of_mem_head? (m : Mantissa) (t : List Char) :
    ∀ c ∈ (m.text ++ t).head?, c ≠ '+' ∧ c ≠ '-' := by
  intro c hc
  rw [List.head?_append, Option.or_of_isSome (List.isSome_head?.2 m.text_ne_nil)] at hc
  exact ne_sign_of_mem_text (List.mem_of_mem_head? hc)

theorem scanFraction_pointText (m : Mantissa) {rest : List Char}
    (h : ∀ c ∈ rest.head?, c.isDigit = false ∧ c ≠ '.') :
    Numeral.scanFraction (m.pointText ++ rest) = (m.places, rest) := by
  rcases m.pointText_cases with ⟨hp, hplaces⟩ | hp
  · rw [hp, hplaces, List.nil_append]
    unfold Numeral.scanFraction
    split
    next => exact absurd rfl (h _ rfl).2
    next => rfl
  · rw [hp, List.cons_append]
    exact Numeral.scanDigits_append_of_allDigits m.isDigit_places fun c hc => (h c hc).1

/-- Digits and point of a mantissa are scanned up to their end. -/
theorem scan_mantissa (m : Mantissa) (s : Option Sign) {rest : List Char}
    (h : ∀ c ∈ rest.head?, c.isDigit = false ∧ c ≠ '.') :
    Numeral.scan (signText s ++ (m.text ++ rest)) =
      some (⟨isMinus s, m.whole, m.places, (Numeral.scanExponent rest).1⟩,
        (Numeral.scanExponent rest).2) := by
  have hpoint : ∀ c ∈ (m.pointText ++ rest).head?, c.isDigit = false := by
    intro c hc
    rcases m.pointText_cases with ⟨hp, -⟩ | hp
    · rw [hp] at hc
      exact (h c hc).1
    · rw [hp] at hc
      obtain rfl : '.' = c := Option.some.inj hc
      rfl
  have hwhole : Numeral.scanDigits (m.text ++ rest) = (m.whole, m.pointText ++ rest) := by
    rw [Mantissa.text, List.append_assoc]
    exact Numeral.scanDigits_append_of_allDigits m.isDigit_whole hpoint
  exact scan_signText s (m.ne_sign_of_mem_head? rest) hwhole (scanFraction_pointText m h)
    m.some_digit_places

/-- What follows an exponent may be taken for more of its digits. -/
theorem Exponent.scanExponent_append (e : Exponent) (t : List Char) :
    let n : Int := Nat.ofDigitChars 10 (e.digits ++ (Numeral.scanDigits t).1) 0
    Numeral.scanExponent (e.text ++ t) =
      (if isMinus e.sign then -n else n, (Numeral.scanDigits t).2) := by
  have hsign : ∀ c ∈ (e.digits ++ t).head?, c ≠ '+' ∧ c ≠ '-' := by
    intro c hc
    rw [List.head?_append, Option.or_of_isSome (List.isSome_head?.2 e.digits_ne_nil)] at hc
    exact Numeral.ne_sign_of_isDigit (e.isDigit_digits c (List.mem_of_mem_head? hc))
  have hmarker : ∀ upper : Bool, ((if upper then 'E' else 'e') == 'e' ||
      (if upper then 'E' else 'e') == 'E') = true := by decide
  have hne : (e.digits ++ (Numeral.scanDigits t).1).isEmpty = false := by
    simp [e.digits_ne_nil]
  simp only [text, List.cons_append, List.append_assoc, Numeral.scanExponent,
    scanSign_signText e.sign hsign, Numeral.scanDigits_append_left e.isDigit_digits, hmarker, hne]
  rfl

theorem Exponent.scanExponent_text (e : Exponent) :
    Numeral.scanExponent e.text = (e.value, []) := by
  have h := e.scanExponent_append []
  rw [List.append_nil] at h
  rw [h, show Numeral.scanDigits [] = ([], []) from rfl, List.append_nil]
  rfl

theorem Number.head?_exponentText (n : Number) :
    ∀ c ∈ n.exponentText.head?, c.isDigit = false ∧ c ≠ '.' := by
  unfold exponentText
  cases n.exponent with
  | none => nofun
  | some e =>
    rintro c ⟨⟩
    cases e.upper <;> decide

theorem Number.scanExponent_exponentText (n : Number) :
    Numeral.scanExponent n.exponentText = (n.power, []) := by
  unfold exponentText power
  cases n.exponent with
  | none => rfl
  | some e => exact e.scanExponent_text

theorem Number.scan_text (n : Number) : Numeral.scan n.text = some (n.numeral, []) := by
  rw [text, scan_mantissa n.mantissa n.sign n.head?_exponentText, n.scanExponent_exponentText]
  rfl

theorem isTermChar_of_mem_signText {s : Option Sign} {c : Char} (h : c ∈ signText s) :
    isTermChar c = true := by
  cases s with
  | none => cases h
  | some s =>
    rw [List.mem_singleton.1 h]
    cases s <;> rfl

theorem isTermChar_of_mem_mantissa {m : Mantissa} {c : Char} (h : c ∈ m.text) :
    isTermChar c = true := by
  rcases isDigit_or_eq_point_of_mem_text h with hc | rfl
  · exact isTermChar_of_isDigit hc
  · rfl

theorem Exponent.isTermChar_of_mem_text {e : Exponent} {c : Char} (h : c ∈ e.text) :
    isTermChar c = true := by
  rcases List.mem_cons.1 h with rfl | h
  · cases e.upper <;> rfl
  · rcases List.mem_append.1 h with h | h
    · exact isTermChar_of_mem_signText h
    · exact isTermChar_of_isDigit (e.isDigit_digits c h)

namespace Number

theorem isTermChar_of_mem_text {n : Number} {c : Char} (h : c ∈ n.text) :
    isTermChar c = true := by
  simp only [text, exponentText, List.mem_append] at h
  rcases h with h | h | h
  · exact isTermChar_of_mem_signText h
  · exact isTermChar_of_mem_mantissa h
  · cases he : n.exponent with
    | none =>
      rw [he] at h
      cases h
    | some e =>
      rw [he] at h
      exact e.isTermChar_of_mem_text h

theorem text_ne_nil (n : Number) : n.text ≠ [] := by
  simp [text, n.mantissa.text_ne_nil]

/-- A number reads as the double nearest to it, also behind blanks. -/
theorem leadingNumber_text (n : Number) {b : List Char} (hb : Blank.AllBlank b) :
    leadingNumber (b ++ n.text) = n.toFloat := by
  have hhead : ∀ c ∈ n.text.head?, Blank.isBlank c = false :=
    fun c hc => not_isBlank_of_isTermChar (isTermChar_of_mem_text (List.mem_of_mem_head? hc))
  rw [leadingNumber, Blank.trimStart_append hb hhead, n.scan_text]
  exact n.toFloat_numeral

end Number

end LinProg.Grammar
