import LinProg.Proofs.Factorization

/-!
# Terms read back

To the reader the left-hand side of a constraint is a list of terms, each with a sign before it and
without blanks (`signedTerms`), of which it cuts off one after another. A finite coefficient reads
back bit for bit. One that is not finite has letters for a text, which run into the name of its
variable; only the sign before them is left of it, and counts as one (`reread`).
-/

namespace LinProg.Constraint

theorem isTermChar_of_mem_columnName {column : Nat} {c : Char} (h : c ∈ columnName column) :
    isTermChar c = true := by
  rcases List.mem_cons.1 h with rfl | h
  · rfl
  · exact isTermChar_of_isDigit (allDigits_toDigits column c h)

/-- The terms for the columns from `column` on as the reader sees them. -/
def signedTerms (column : Nat) : List Float → List Char
  | [] => []
  | x :: xs =>
    Double.signChar x :: Double.text (Double.abs x) ++ columnName column ++
      signedTerms (column + 1) xs

theorem squeeze_renderRest (column : Nat) (xs : List Float) :
    Blank.squeeze (renderRest column xs) = signedTerms column xs := by
  induction xs generalizing column with
  | nil => rfl
  | cons x xs ih =>
    have htext := squeeze_eq_self fun c (hc : c ∈ Double.text (Double.abs x)) =>
      isTermChar_of_mem_text_abs hc
    have hname := squeeze_eq_self fun c (hc : c ∈ columnName column) =>
      isTermChar_of_mem_columnName hc
    have hsign : Blank.squeeze [' ', Double.signChar x, ' '] = [Double.signChar x] := by
      unfold Double.signChar
      split <;> decide
    calc
      Blank.squeeze (renderRest column (x :: xs))
          = Blank.squeeze ([' ', Double.signChar x, ' '] ++ Double.text (Double.abs x) ++
              columnName column ++ renderRest (column + 1) xs) := rfl
      _ = [Double.signChar x] ++ Double.text (Double.abs x) ++ columnName column ++
              signedTerms (column + 1) xs := by
            rw [Blank.squeeze_append, Blank.squeeze_append, Blank.squeeze_append, hsign, htext,
              hname, ih]
      _ = signedTerms column (x :: xs) := rfl

theorem withSign_text_append (x : Float) (t : List Char) :
    withSign (Double.text x ++ t) = Double.signChar x :: Double.text (Double.abs x) ++ t := by
  unfold Double.signChar
  rw [Double.text_eq]
  cases hn : Double.isNegative x with
  | true => rfl
  | false =>
    obtain ⟨c, u, hu, hplus, hminus⟩ := exists_text_abs_eq_cons x
    rw [if_neg Bool.false_ne_true, if_neg Bool.false_ne_true, hu]
    exact if_neg (by simp [hplus, hminus])

theorem withSign_squeeze_renderTerms (x : Float) (xs : List Float) :
    withSign (Blank.squeeze (renderTerms (x :: xs) ++ [' '])) = signedTerms 1 (x :: xs) := by
  have htext := squeeze_eq_self fun c (hc : c ∈ Double.text x) => isTermChar_of_mem_text hc
  have hname := squeeze_eq_self fun c (hc : c ∈ columnName 1) => isTermChar_of_mem_columnName hc
  have hblank : Blank.squeeze [' '] = [] := by decide
  rw [renderTerms, Blank.squeeze_append, Blank.squeeze_append, Blank.squeeze_append,
    squeeze_renderRest, htext, hname, hblank, List.append_nil, List.append_assoc,
    withSign_text_append, ← List.append_assoc]
  rfl

/-- What a coefficient is after a round trip. -/
def reread (x : Float) : Float :=
  if Double.isFinite x then x
  else if x = Double.negInf then Double.signedOne true
  else Double.signedOne false

theorem reread_of_not_isFinite {x : Float} (h : Double.isFinite x = false) :
    reread x = Double.signedOne (Double.isNegative x) := by
  have hle : Double.infinite ≤ Double.magnitude x := by simpa [Double.isFinite] using h
  have hneg : x = Double.negInf ↔ Double.isNegative x = true := by
    constructor
    · rintro rfl
      exact Double.isNegative_ofPosition (Nat.le_refl _)
    · intro hn
      have hnumber : ¬ Double.infinite < Double.magnitude x := by
        intro hlt
        rw [Double.isNegative_of_infinite_lt hlt] at hn
        cases hn
      have hx := Double.ofPosition_magnitude x
      rw [hn, Nat.le_antisymm (Nat.le_of_not_lt hnumber) hle] at hx
      exact hx.symm
  rw [reread, h, if_neg Bool.false_ne_true]
  cases hn : Double.isNegative x with
  | true => rw [if_pos (hneg.2 hn)]
  | false =>
    have hne : x ≠ Double.negInf := by
      intro hx
      rw [hneg.1 hx] at hn
      cases hn
    rw [if_neg hne]

theorem pieceCoefficient_of_isFinite {x : Float} (h : Double.isFinite x = true) :
    pieceCoefficient (Double.signChar x :: Double.text (Double.abs x)) = reread x := by
  obtain ⟨t, c, ht, hc⟩ := (Decimal.shortest .up (Double.magnitude x)).exists_plain_eq_concat
  have htrailing : trailingSign? (Double.signChar x :: Double.text (Double.abs x)) = none := by
    rw [Double.text_abs_of_isFinite h, ht, trailingSign?, ← List.cons_append,
      List.getLast?_concat]
    split
    next heq =>
      cases heq
      cases hc
    next heq =>
      cases heq
      cases hc
    next => rfl
  rw [pieceCoefficient, htrailing, reread, if_pos h]
  exact Double.leadingNumber_signChar_cons h

theorem pieceCoefficient_of_not_isFinite {x : Float} (h : Double.isFinite x = false) :
    pieceCoefficient [Double.signChar x] = reread x := by
  rw [reread_of_not_isFinite h, Double.signChar]
  cases Double.isNegative x <;> rfl

theorem head?_signedTerms (column : Nat) (xs : List Float) :
    ∀ c ∈ (signedTerms column xs).head?, c.isDigit = false := by
  cases xs with
  | nil => nofun
  | cons x xs =>
    rintro c ⟨⟩
    unfold Double.signChar
    split <;> rfl

/-- Letters with the number of a column behind them are a name; the next term begins behind it. -/
theorem pieces_column_append {piece letters : List Char} (column : Nat) (xs : List Float)
    (hp : ∀ a ∈ piece, a.isAlpha = false) (hl : ∀ a ∈ letters, a.isAlpha = true)
    (hne : letters ≠ []) :
    pieces (piece ++ (letters ++ Nat.toDigits 10 column ++ signedTerms (column + 1) xs)) =
      piece :: pieces (signedTerms (column + 1) xs) := by
  let n : Name := ⟨letters, Nat.toDigits 10 column, hne, hl, allDigits_toDigits column⟩
  have hn : n.EndsBefore (signedTerms (column + 1) xs) := fun c hc =>
    ⟨head?_signedTerms (column + 1) xs c hc, fun h => absurd h Nat.toDigits_ne_nil⟩
  exact pieces_append hp hn

theorem pieces_signedTerms_cons (column : Nat) (x : Float) (xs : List Float) :
    (pieces (signedTerms column (x :: xs))).map pieceCoefficient =
      reread x :: (pieces (signedTerms (column + 1) xs)).map pieceCoefficient := by
  cases hx : Double.isFinite x with
  | true =>
    have hpiece : ∀ a ∈ Double.signChar x :: Double.text (Double.abs x), a.isAlpha = false := by
      intro a ha
      rcases List.mem_cons.1 ha with rfl | ha
      · exact isAlpha_signChar x
      · rcases isDigit_or_eq_point_of_mem_text_abs hx ha with hd | rfl
        · exact not_isAlpha_of_isDigit hd
        · rfl
    have hcut := pieces_column_append column xs hpiece
      (List.forall_mem_singleton.2 (show 'x'.isAlpha = true from rfl)) nofun
    have hterms : signedTerms column (x :: xs) = Double.signChar x :: Double.text (Double.abs x) ++
        (['x'] ++ Nat.toDigits 10 column ++ signedTerms (column + 1) xs) := by
      simp [signedTerms, columnName]
    rw [← pieceCoefficient_of_isFinite hx, ← List.map_cons, ← hcut, ← hterms]
  | false =>
    have hname : ∀ a ∈ Double.text (Double.abs x) ++ ['x'], a.isAlpha = true :=
      List.forall_mem_append.2
        ⟨fun a ha => isAlpha_of_mem_text_abs hx ha, List.forall_mem_singleton.2 rfl⟩
    have hpiece : ∀ a ∈ [Double.signChar x], a.isAlpha = false := by
      intro a ha
      rw [List.mem_singleton.1 ha]
      exact isAlpha_signChar x
    have hcut := pieces_column_append column xs hpiece hname (by simp)
    have hterms : signedTerms column (x :: xs) = [Double.signChar x] ++
        (Double.text (Double.abs x) ++ ['x'] ++ Nat.toDigits 10 column ++
          signedTerms (column + 1) xs) := by
      simp [signedTerms, columnName]
    rw [← pieceCoefficient_of_not_isFinite hx, ← List.map_cons, ← hcut, ← hterms]

theorem pieces_signedTerms (column : Nat) (xs : List Float) :
    (pieces (signedTerms column xs)).map pieceCoefficient = xs.map reread := by
  induction xs generalizing column with
  | nil =>
    rw [signedTerms, pieces]
    rfl
  | cons x xs ih => rw [pieces_signedTerms_cons, ih, List.map_cons]

theorem readCoefficients_renderTerms (xs : List Float) :
    readCoefficients (renderTerms xs ++ [' ']) = xs.map reread := by
  cases xs with
  | nil =>
    have hzero : pieces ['+', '0'] = [] := by
      rw [pieces]
      rfl
    exact congrArg (List.map pieceCoefficient) hzero
  | cons x xs => rw [readCoefficients, withSign_squeeze_renderTerms, pieces_signedTerms]

end LinProg.Constraint
