import LinProg.Proofs.ShortestReading

/-!
# The characters of numbers

The text of a finite double has digits and a point, perhaps behind a minus; that of any other has
letters. None of them is blank or part of a comparison symbol, which lets a reader find the numbers
in a text.
-/

namespace LinProg

/-- The characters of numbers and of names. -/
def isTermChar (c : Char) : Bool := c.isAlpha || c.isDigit || c == '.' || c == '+' || c == '-'

theorem isAlpha_iff {c : Char} :
    c.isAlpha = true ↔ 65 ≤ c.toNat ∧ c.toNat ≤ 90 ∨ 97 ≤ c.toNat ∧ c.toNat ≤ 122 := by
  simp only [Char.isAlpha, Char.isUpper, Char.isLower, Bool.or_eq_true, Bool.and_eq_true,
    decide_eq_true_eq, ge_iff_le, UInt32.le_iff_toNat_le]
  rfl

theorem not_isBlank_of_isAlpha {c : Char} (h : c.isAlpha = true) : Blank.isBlank c = false := by
  have hc := isAlpha_iff.1 h
  simp only [Blank.isBlank, Blank.ranges, List.any_cons, List.any_nil, Bool.or_false,
    Bool.or_eq_false_iff, Bool.and_eq_false_iff, decide_eq_false_iff_not]
  omega

theorem not_isBlank_of_isTermChar {c : Char} (h : isTermChar c = true) :
    Blank.isBlank c = false := by
  simp only [isTermChar, Bool.or_eq_true, beq_iff_eq] at h
  rcases h with (((h | h) | rfl) | rfl) | rfl
  · exact not_isBlank_of_isAlpha h
  · exact Blank.not_isBlank_of_isDigit h
  · decide
  · decide
  · decide

theorem squeeze_eq_self {t : List Char} (h : ∀ c ∈ t, isTermChar c = true) :
    Blank.squeeze t = t := by
  apply List.filter_eq_self.2
  intro c hc
  rw [not_isBlank_of_isTermChar (h c hc)]
  rfl

theorem isTermChar_of_isDigit {c : Char} (h : c.isDigit = true) : isTermChar c = true := by
  simp [isTermChar, h]

theorem isDigit_or_eq_point_of_mem_text_abs {x : Float} (hx : Double.isFinite x = true) {c : Char}
    (h : c ∈ Double.text (Double.abs x)) : c.isDigit = true ∨ c = '.' := by
  obtain ⟨w, f, hd⟩ := (Decimal.shortest .up (Double.magnitude x)).exists_splits
  rw [Double.text_abs_of_isFinite hx, hd.plain_eq, List.mem_append] at h
  rcases h with h | h
  · exact .inl (hd.whole c h)
  · unfold pointFraction at h
    split at h
    · cases h
    · rcases List.mem_cons.1 h with rfl | h
      · exact .inr rfl
      · exact .inl (hd.fraction c h)

theorem isAlpha_of_mem_text_abs {x : Float} (hx : Double.isFinite x = false) {c : Char}
    (h : c ∈ Double.text (Double.abs x)) : c.isAlpha = true := by
  have hinf : "inf".toList.all Char.isAlpha = true := by decide
  have hnan : "NaN".toList.all Char.isAlpha = true := by decide
  rcases Double.text_abs_of_not_isFinite hx with ht | ht
  · rw [ht] at h
    exact List.all_eq_true.1 hinf c h
  · rw [ht] at h
    exact List.all_eq_true.1 hnan c h

theorem isTermChar_of_mem_text_abs {x : Float} {c : Char} (h : c ∈ Double.text (Double.abs x)) :
    isTermChar c = true := by
  cases hx : Double.isFinite x with
  | true =>
    rcases isDigit_or_eq_point_of_mem_text_abs hx h with hc | rfl
    · exact isTermChar_of_isDigit hc
    · rfl
  | false => simp [isTermChar, isAlpha_of_mem_text_abs hx h]

theorem exists_text_abs_eq_cons (x : Float) :
    ∃ c t, Double.text (Double.abs x) = c :: t ∧ c ≠ '+' ∧ c ≠ '-' := by
  cases hx : Double.isFinite x with
  | true =>
    obtain ⟨c, t, hd, hc⟩ := (Decimal.shortest .up (Double.magnitude x)).exists_plain_eq_cons
    rw [Double.text_abs_of_isFinite hx]
    refine ⟨c, t, hd, ?_, ?_⟩
    · rintro rfl
      cases hc
    · rintro rfl
      cases hc
  | false =>
    rcases Double.text_abs_of_not_isFinite hx with ht | ht
    · exact ⟨'i', ['n', 'f'], ht, by decide, by decide⟩
    · exact ⟨'N', ['a', 'N'], ht, by decide, by decide⟩

theorem isTermChar_of_mem_text {x : Float} {c : Char} (h : c ∈ Double.text x) :
    isTermChar c = true := by
  rw [Double.text_eq] at h
  split at h
  · rcases List.mem_cons.1 h with rfl | h
    · rfl
    · exact isTermChar_of_mem_text_abs h
  · exact isTermChar_of_mem_text_abs h

theorem text_ne_nil (x : Float) : Double.text x ≠ [] := by
  obtain ⟨c, t, ht, -⟩ := exists_text_abs_eq_cons x
  rw [Double.text_eq, ht]
  split <;> exact nofun

theorem isTermChar_signChar (x : Float) : isTermChar (Double.signChar x) = true := by
  unfold Double.signChar
  split <;> rfl

theorem not_isAlpha_of_isDigit {c : Char} (h : c.isDigit = true) : c.isAlpha = false := by
  have hdigit := isDigit_iff.1 h
  rw [Bool.eq_false_iff]
  intro halpha
  have hc := isAlpha_iff.1 halpha
  omega

theorem isAlpha_signChar (x : Float) : (Double.signChar x).isAlpha = false := by
  unfold Double.signChar
  split <;> rfl

end LinProg
