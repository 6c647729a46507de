import LinProg.Proofs.Factorization
import LinProg.Proofs.NearestDouble
import LinProg.Proofs.SymbolCut
import LinProg.Proofs.WrittenNumber

/-!
# Sentences of the constraint grammar

A sentence is a list of terms, a comparison and a number. Every term but the first has a sign before
it, and a term is a variable name with or without a magnitude before it. Blanks may stand anywhere
on the left, around the comparison symbol and at both ends.

However it is written, a sentence reads as its meaning (`ofText_of_writes`): one coefficient for
each term, in order, and one for the sign alone where there is no magnitude.
-/

namespace LinProg.Grammar

open Constraint (Name Factorization)

structure Term where
  magnitude : Option Mantissa
  name : Name

/-- The terms of a left-hand side. Only the first may do without a sign. -/
structure Terms where
  sign : Option Sign
  first : Term
  rest : List (Sign × Term)

structure Sentence where
  terms : Terms
  comparison : Comparison
  right : Number

def magnitudeText (m : Option Mantissa) : List Char := (m.map Mantissa.text).getD []

def Term.text (t : Term) : List Char := magnitudeText t.magnitude ++ t.name.text

def Terms.text (ts : Terms) : List Char :=
  signText ts.sign ++ ts.first.text ++ ts.rest.flatMap fun p => p.1.char :: p.2.text

/-- What counts of the terms: their signs and magnitudes, but not their names. -/
def Terms.factors (ts : Terms) : List (Option Sign × Option Mantissa) :=
  (ts.sign, ts.first.magnitude) :: ts.rest.map fun p => (some p.1, p.2.magnitude)

/-- The signed value of a magnitude, which is one where it is missing. -/
def coefficient : Option Sign × Option Mantissa → Float
  | (s, none) => Double.signedOne (isMinus s)
  | (s, some m) => Double.signed (isMinus s) m.value

/-- The size that the coefficient is rounded from. -/
def magnitudeValue (m : Option Mantissa) : Rat := (m.map Mantissa.value).getD 1

def Sentence.meaning (s : Sentence) : Constraint :=
  ⟨s.terms.factors.map coefficient, s.comparison, s.right.toFloat⟩

/-- The text is the sentence with blanks on the left, around the symbol and at the ends. -/
def Sentence.Writes (s : Sentence) (t : List Char) : Prop :=
  ∃ left gap close, Blank.Spaced s.terms.text left ∧ Blank.AllBlank gap ∧ Blank.AllBlank close ∧
    t = left ++ (s.comparison.symbol.toList ++ (gap ++ (s.right.text ++ close)))

theorem Mantissa.value_nonneg (m : Mantissa) : 0 ≤ m.value := by
  unfold value
  positivity

theorem Number.size_nonneg (n : Number) : 0 ≤ n.size :=
  mul_nonneg n.mantissa.value_nonneg (zpow_nonneg (by norm_num) _)

/-- A coefficient is the double nearest to the magnitude, with the sign of the term. -/
theorem rounds_coefficient (f : Option Sign × Option Mantissa) :
    Double.Rounds (isMinus f.1) (magnitudeValue f.2) (coefficient f) := by
  obtain ⟨s, m⟩ := f
  cases m with
  | none => exact (Double.rounds_iff zero_le_one).2 (Double.signed_one (isMinus s)).symm
  | some m => exact Double.rounds_signed (isMinus s) m.value_nonneg

/-- The factorization of the terms behind the first. -/
def restFactorization : List (Sign × Term) → Factorization
  | [] => .tail []
  | (s, t) :: ts => .cons (s.char :: magnitudeText t.magnitude) t.name (restFactorization ts)

def Terms.factorization (ts : Terms) : Factorization :=
  .cons (signText ts.sign ++ magnitudeText ts.first.magnitude) ts.first.name
    (restFactorization ts.rest)

theorem text_restFactorization (ts : List (Sign × Term)) :
    (restFactorization ts).text = ts.flatMap fun p => p.1.char :: p.2.text := by
  induction ts with
  | nil => rfl
  | cons p ts ih =>
    simp only [restFactorization, Factorization.text, ih, List.flatMap_cons, Term.text,
      List.cons_append, List.append_assoc]

theorem Terms.text_factorization (ts : Terms) : ts.factorization.text = ts.text := by
  simp only [factorization, Factorization.text, text_restFactorization, text, Term.text,
    List.append_assoc]

theorem not_isAlpha_char (s : Sign) : s.char.isAlpha = false := by
  cases s <;> rfl

theorem not_isAlpha_of_mem_magnitudeText {m : Option Mantissa} {c : Char}
    (h : c ∈ magnitudeText m) : c.isAlpha = false := by
  cases m with
  | none => cases h
  | some m =>
    rcases isDigit_or_eq_point_of_mem_text h with hc | rfl
    · exact not_isAlpha_of_isDigit hc
    · rfl

theorem endsBefore_restFactorization (n : Name) (ts : List (Sign × Term)) :
    n.EndsBefore (restFactorization ts).text := by
  cases ts with
  | nil => nofun
  | cons p ts =>
    rintro c ⟨⟩
    cases p.1 <;> exact ⟨rfl, fun _ => rfl⟩

theorem maximal_restFactorization (ts : List (Sign × Term)) :
    (restFactorization ts).Maximal := by
  induction ts with
  | nil => exact Factorization.maximal_tail (List.forall_mem_nil _)
  | cons p ts ih =>
    refine ih.cons ?_ (endsBefore_restFactorization _ ts)
    exact List.forall_mem_cons.2
      ⟨not_isAlpha_char p.1, fun c hc => not_isAlpha_of_mem_magnitudeText hc⟩

theorem Terms.maximal_factorization (ts : Terms) : ts.factorization.Maximal := by
  refine (maximal_restFactorization ts.rest).cons ?_ (endsBefore_restFactorization _ ts.rest)
  refine List.forall_mem_append.2 ⟨?_, fun c hc => not_isAlpha_of_mem_magnitudeText hc⟩
  cases ts.sign with
  | none => exact List.forall_mem_nil _
  | some s => exact List.forall_mem_singleton.2 (not_isAlpha_char s)

theorem trailingSign?_text (s : Sign) (m : Mantissa) :
    Constraint.trailingSign? (s.char :: m.text) = none := by
  obtain ⟨t, c, ht⟩ : ∃ t c, m.text = t ++ [c] :=
    ⟨_, _, (List.dropLast_concat_getLast m.text_ne_nil).symm⟩
  have hc := ne_sign_of_mem_text (m := m) (c := c) (by simp [ht])
  rw [ht, ← List.cons_append, Constraint.trailingSign?, List.getLast?_concat]
  split
  next heq => exact absurd (Option.some.inj heq) hc.2
  next heq => exact absurd (Option.some.inj heq) hc.1
  next => rfl

/-- A magnitude behind its sign, or the sign alone, reads as the coefficient. -/
theorem pieceCoefficient_char_cons (s : Sign) (m : Option Mantissa) :
    Constraint.pieceCoefficient (s.char :: magnitudeText m) = coefficient (some s, m) := by
  cases m with
  | none => cases s <;> rfl
  | some m =>
    change Constraint.pieceCoefficient (s.char :: m.text) = _
    have hread := (Number.mk (some s) m none).leadingNumber_text (b := []) nofun
    have hsize : (Number.mk (some s) m none).size = m.value := by
      simp only [Number.size, Number.power, zpow_zero, mul_one]
    simp only [Number.toFloat, hsize, Number.text, Number.exponentText, List.append_nil] at hread
    rw [Constraint.pieceCoefficient, trailingSign?_text]
    exact hread

theorem beginsWithSign_magnitudeText (m : Option Mantissa) :
    Constraint.beginsWithSign (magnitudeText m) = false := by
  cases m with
  | none => rfl
  | some m =>
    obtain ⟨c, t, ht⟩ := List.exists_cons_of_ne_nil m.text_ne_nil
    have hc := ne_sign_of_mem_text (m := m) (c := c) (by simp [ht])
    change Constraint.beginsWithSign m.text = false
    simp [Constraint.beginsWithSign, ht, hc]

/-- The first term without a sign reads as behind a plus. -/
theorem pieceCoefficient_first (s : Option Sign) (m : Option Mantissa) :
    Constraint.pieceCoefficient
      (if Constraint.beginsWithSign (signText s ++ magnitudeText m) then
        signText s ++ magnitudeText m else '+' :: (signText s ++ magnitudeText m)) =
      coefficient (s, m) := by
  cases s with
  | none =>
    rw [signText, Option.map_none, Option.toList_none, List.nil_append,
      beginsWithSign_magnitudeText, if_neg Bool.false_ne_true]
    have hplus := pieceCoefficient_char_cons .plus m
    cases m <;> exact hplus
  | some s =>
    have hsign : Constraint.beginsWithSign (signText (some s) ++ magnitudeText m) = true := by
      cases s <;> rfl
    rw [hsign, if_pos rfl]
    exact pieceCoefficient_char_cons s m

theorem map_pieceCoefficient_restFactorization (ts : List (Sign × Term)) :
    ((restFactorization ts).parts.map Prod.fst).map Constraint.pieceCoefficient =
      (ts.map fun p => (some p.1, p.2.magnitude)).map coefficient := by
  induction ts with
  | nil => rfl
  | cons p ts ih =>
    rw [restFactorization, Factorization.parts, List.map_cons, List.map_cons, ih,
      pieceCoefficient_char_cons]
    rfl

theorem isTermChar_of_mem_term {t : Term} {c : Char} (h : c ∈ t.text) : isTermChar c = true := by
  rcases List.mem_append.1 h with h | h
  · cases hm : t.magnitude with
    | none =>
      rw [hm] at h
      cases h
    | some m =>
      rw [hm] at h
      exact isTermChar_of_mem_mantissa h
  · rcases List.mem_append.1 h with h | h
    · simp [isTermChar, t.name.isAlpha_letters c h]
    · exact isTermChar_of_isDigit (t.name.isDigit_digits c h)

theorem Terms.isTermChar_of_mem_text {ts : Terms} {c : Char} (h : c ∈ ts.text) :
    isTermChar c = true := by
  simp only [text, List.mem_append, List.mem_flatMap] at h
  rcases h with (h | h) | ⟨p, -, h⟩
  · exact isTermChar_of_mem_signText h
  · exact isTermChar_of_mem_term h
  · rcases List.mem_cons.1 h with rfl | h
    · cases p.1 <;> rfl
    · exact isTermChar_of_mem_term h

/-- Terms read as their signs and magnitudes, wherever blanks stand among them. -/
theorem readCoefficients_of_squeeze {ts : Terms} {left : List Char}
    (h : Blank.squeeze left = ts.text) :
    Constraint.readCoefficients left = ts.factors.map coefficient := by
  have htext : ts.factorization.text = Blank.squeeze left := by rw [ts.text_factorization, h]
  rw [Constraint.readCoefficients_of_maximal ts.maximal_factorization htext, ← htext]
  simp only [Terms.factorization, Factorization.parts, List.map_cons, List.modifyHead_cons,
    Factorization.beginsWithSign_text, pieceCoefficient_first,
    map_pieceCoefficient_restFactorization, Terms.factors]

/-- Only blanks and the characters of terms and numbers stand beside the comparison symbol. -/
theorem isTermChar_of_mem_spaced {ts : Terms} {left : List Char}
    (h : Blank.Spaced ts.text left) {c : Char} (hc : c ∈ left) (hb : Blank.isBlank c = false) :
    isTermChar c = true := by
  rcases Blank.mem_of_spaced h hc with hmem | hblank
  · exact ts.isTermChar_of_mem_text hmem
  · rw [hb] at hblank
    cases hblank

theorem Number.not_isBlank_getLast? (n : Number) (t : List Char) :
    ∀ c ∈ (t ++ n.text).getLast?, Blank.isBlank c = false := by
  intro c hc
  rw [List.getLast?_append_of_ne_nil _ n.text_ne_nil] at hc
  exact not_isBlank_of_isTermChar (n.isTermChar_of_mem_text (List.mem_of_getLast? hc))

/-- The blanks at the ends of a sentence are trimmed. -/
theorem trim_sentence (s : Sentence) {a left close : List Char} (gap : List Char)
    (ha : Blank.AllBlank a) (hclose : Blank.AllBlank close)
    (hleft : ∀ c ∈ left.head?, Blank.isBlank c = false) :
    Blank.trim (a ++ left ++ (s.comparison.symbol.toList ++ (gap ++ (s.right.text ++ close)))) =
      left ++ (s.comparison.symbol.toList ++ (gap ++ s.right.text)) := by
  have hfirst : ∀ c ∈ (left ++ (s.comparison.symbol.toList ++ (gap ++ s.right.text))).head?,
      Blank.isBlank c = false := by
    cases left with
    | nil => cases s.comparison <;> (rintro c ⟨⟩; rfl)
    | cons d left => exact hleft
  have hlast : ∀ c ∈ (left ++ (s.comparison.symbol.toList ++ (gap ++ s.right.text))).getLast?,
      Blank.isBlank c = false := by
    rw [← List.append_assoc, ← List.append_assoc]
    exact s.right.not_isBlank_getLast? _
  rw [← Blank.trim_append ha hclose hfirst hlast]
  simp only [List.append_assoc]

/-- Neither terms nor numbers nor blanks have a part of a comparison symbol in them. -/
theorem divides_sentence (s : Sentence) {left gap : List Char} (hgap : Blank.AllBlank gap)
    (hleft : ∀ c ∈ left, Blank.isBlank c = false → isTermChar c = true) :
    Constraint.Divides (left ++ (s.comparison.symbol.toList ++ (gap ++ s.right.text))) left
      s.comparison (gap ++ s.right.text) := by
  refine ⟨rfl, ?_, ?_, ?_⟩
  · intro hmem
    exact absurd (hleft '=' hmem (by decide)) (by decide)
  · intro hmem
    rcases List.mem_append.1 hmem with hmem | hmem
    · exact absurd (hgap '=' hmem) (by decide)
    · exact absurd (s.right.isTermChar_of_mem_text hmem) (by decide)
  · intro _
    constructor
    · intro hlast
      exact absurd (hleft '<' (List.mem_of_getLast? hlast) (by decide)) (by decide)
    · intro hlast
      exact absurd (hleft '>' (List.mem_of_getLast? hlast) (by decide)) (by decide)

/-- A sentence is divided at its comparison symbol, without the blanks at its ends. -/
theorem exists_divides_trim {s : Sentence} {t : List Char} (h : s.Writes t) :
    ∃ left gap, Blank.squeeze left = s.terms.text ∧ Blank.AllBlank gap ∧
      Constraint.Divides (Blank.trim t) left s.comparison (gap ++ s.right.text) := by
  obtain ⟨spaced, gap, close, hspaced, hgap, hclose, rfl⟩ := h
  obtain ⟨a, ha, hstart⟩ := Blank.exists_eq_append_trimStart spaced
  have hhead := Blank.not_isBlank_head?_trimStart spaced
  have hterm : ∀ c ∈ Blank.trimStart spaced, Blank.isBlank c = false → isTermChar c = true := by
    intro c hc
    apply isTermChar_of_mem_spaced hspaced
    rw [hstart]
    exact List.mem_append_right _ hc
  have hsqueeze : Blank.squeeze (Blank.trimStart spaced) = s.terms.text := by
    have htext := Blank.squeeze_of_spaced hspaced fun c hc =>
      not_isBlank_of_isTermChar (s.terms.isTermChar_of_mem_text hc)
    rwa [hstart, Blank.squeeze_append, Blank.squeeze_of_allBlank ha, List.nil_append] at htext
  refine ⟨Blank.trimStart spaced, gap, hsqueeze, hgap, ?_⟩
  have htrim := trim_sentence s gap ha hclose hhead
  rw [← hstart] at htrim
  rw [htrim]
  exact divides_sentence s hgap hterm

theorem ofText_eq_meaning {s : Sentence} {t : List Char} (h : s.Writes t) :
    Constraint.ofText (String.ofList t) = .ok s.meaning := by
  obtain ⟨left, gap, hleft, hgap, hdivides⟩ := exists_divides_trim h
  rw [Constraint.ofText, String.toList_ofList, Constraint.read_of_divides hdivides,
    readCoefficients_of_squeeze hleft, s.right.leadingNumber_text hgap]
  rfl

/-- However it is written, a sentence reads as its meaning, whose numbers are rounded from those
that are written. The names have no influence, and a zero behind a minus is negative. -/
theorem ofText_of_writes (s : Sentence) (t : List Char) (h : s.Writes t) :
    Constraint.ofText (String.ofList t) = .ok s.meaning ∧
    s.meaning.coefficients.length = s.terms.rest.length + 1 ∧
    (∀ f ∈ s.terms.factors, Double.Rounds (isMinus f.1) (magnitudeValue f.2) (coefficient f)) ∧
    Double.Rounds (isMinus s.right.sign) s.right.size s.meaning.value ∧
    (∀ (r : Sentence) (u : List Char), r.Writes u → r.terms.factors = s.terms.factors →
      r.comparison = s.comparison → r.right = s.right →
      Constraint.ofText (String.ofList u) = Constraint.ofText (String.ofList t)) ∧
    ∀ m : Mantissa, m.value = 0 → coefficient (some .minus, some m) = Double.negZero := by
  refine ⟨ofText_eq_meaning h, ?_, fun f _ => rounds_coefficient f,
    Double.rounds_signed _ s.right.size_nonneg, ?_, ?_⟩
  · simp [Sentence.meaning, Terms.factors]
  · intro r u hr hfactors hcomparison hright
    rw [ofText_eq_meaning hr, ofText_eq_meaning h]
    simp only [Sentence.meaning, hfactors, hcomparison, hright]
  · intro m hm
    rw [coefficient, hm]
    exact Double.signed_zero true

/-- A name that looks like an exponent is a name. -/
theorem ofText_exponent_name :
    Constraint.ofText (String.ofList " 2e5 - .5 x1+y <= -3.5E+2\t".toList) =
      .ok ⟨[Double.signed false 2, Double.signed true (1 / 2), Double.signedOne false],
        .lessOrEqual, Double.signed true 350⟩ := by
  let e5 : Name := ⟨['e'], ['5'], nofun, List.all_eq_true.1 rfl, List.all_eq_true.1 rfl⟩
  let x1 : Name := ⟨['x'], ['1'], nofun, List.all_eq_true.1 rfl, List.all_eq_true.1 rfl⟩
  let y : Name := ⟨['y'], [], nofun, List.all_eq_true.1 rfl, List.forall_mem_nil _⟩
  have hfive : ∀ f ∈ some ['5'], AllDigits f := by
    rintro f ⟨⟩
    exact List.all_eq_true.1 rfl
  let two : Mantissa := ⟨['2'], none, List.all_eq_true.1 rfl, nofun, .inl nofun⟩
  let half : Mantissa := ⟨[], some ['5'], List.forall_mem_nil _, hfive, .inr ⟨_, rfl, nofun⟩⟩
  let right : Mantissa := ⟨['3'], some ['5'], List.all_eq_true.1 rfl, hfive, .inl nofun⟩
  let exponent : Exponent := ⟨true, some .plus, ['2'], nofun, List.all_eq_true.1 rfl⟩
  let s : Sentence := ⟨⟨none, ⟨some two, e5⟩, [(.minus, ⟨some half, x1⟩), (.plus, ⟨none, y⟩)]⟩,
    .lessOrEqual, ⟨some .minus, right, some exponent⟩⟩
  have hwrites : s.Writes " 2e5 - .5 x1+y <= -3.5E+2\t".toList := by
    refine ⟨" 2e5 - .5 x1+y ".toList, [' '], ['\t'], ?_, ?_, ?_, ?_⟩
    · exact Blank.spaced_squeeze " 2e5 - .5 x1+y ".toList
    · exact List.all_eq_true.1 rfl
    · exact List.all_eq_true.1 rfl
    · have hright : s.right.text = "-3.5E+2".toList := rfl
      have hsymbol : s.comparison.symbol.toList = "<=".toList := rfl
      rw [hright, hsymbol]
      rfl
  have htwo : two.value = 2 := by
    change ((2 : Nat) : Rat) / (10 : Rat) ^ 0 = 2
    norm_num
  have hhalf : half.value = 1 / 2 := by
    change ((5 : Nat) : Rat) / (10 : Rat) ^ 1 = 1 / 2
    norm_num
  have hsize : s.right.size = 350 := by
    change ((35 : Nat) : Rat) / (10 : Rat) ^ 1 * (10 : Rat) ^ (2 : Int) = 350
    norm_num
  have hmeaning : s.meaning = ⟨[Double.signed false two.value, Double.signed true half.value,
      Double.signedOne false], .lessOrEqual, Double.signed true s.right.size⟩ := rfl
  rw [(ofText_of_writes s _ hwrites).1, hmeaning, htwo, hhalf, hsize]

end LinProg.Grammar
