import LinProg.Proofs.SpacedText
import LinProg.Proofs.SymbolCut
import LinProg.Proofs.TermReading

/-!
# Constraints read back

A constraint that is written out and read again keeps its comparison and the number of its
coefficients, and with them every finite number bit for bit (`ofText_toString`). A coefficient that
is not finite becomes one or minus one, and such a right-hand side becomes zero, so that a
constraint comes back as it was just if all its numbers are finite.
-/

namespace LinProg.Constraint

def rereadValue (x : Float) : Float := if Double.isFinite x then x else Double.zero

theorem leadingNumber_blank_text (x : Float) :
    leadingNumber (' ' :: Double.text x) = rereadValue x := by
  have hblank : leadingNumber (' ' :: Double.text x) = leadingNumber (Double.text x) := rfl
  rw [hblank, rereadValue]
  cases hx : Double.isFinite x with
  | true => rw [if_pos rfl, Double.leadingNumber_text hx]
  | false => rw [if_neg Bool.false_ne_true, Double.leadingNumber_text_of_not_isFinite hx]

theorem ne_equals_of_isTermChar {c : Char} (h : isTermChar c = true ∨ c = ' ') : c ≠ '=' := by
  rintro rfl
  revert h
  decide

theorem mem_renderRest {column : Nat} {xs : List Float} {c : Char}
    (h : c ∈ renderRest column xs) : isTermChar c = true ∨ c = ' ' := by
  induction xs generalizing column with
  | nil => cases h
  | cons x xs ih =>
    change c ∈ [' ', Double.signChar x, ' '] ++ Double.text (Double.abs x) ++ columnName column ++
      renderRest (column + 1) xs at h
    simp only [List.mem_append] at h
    rcases h with ((h | h) | h) | h
    · simp only [List.mem_cons, List.not_mem_nil, or_false] at h
      rcases h with rfl | rfl | rfl
      · exact .inr rfl
      · exact .inl (isTermChar_signChar x)
      · exact .inr rfl
    · exact .inl (isTermChar_of_mem_text_abs h)
    · exact .inl (isTermChar_of_mem_columnName h)
    · exact ih h

theorem mem_renderTerms {xs : List Float} {c : Char} (h : c ∈ renderTerms xs) :
    isTermChar c = true ∨ c = ' ' := by
  cases xs with
  | nil =>
    rw [List.mem_singleton.1 h]
    exact .inl rfl
  | cons x xs =>
    simp only [renderTerms, List.mem_append] at h
    rcases h with (h | h) | h
    · exact .inl (isTermChar_of_mem_text h)
    · exact .inl (isTermChar_of_mem_columnName h)
    · exact mem_renderRest h

theorem divides_render (c : Constraint) :
    Divides c.render (renderTerms c.coefficients ++ [' ']) c.comparison
      (' ' :: Double.text c.value) where
  eq_append := by simp [render]
  not_mem_left h := by
    rcases List.mem_append.1 h with h | h
    · exact ne_equals_of_isTermChar (mem_renderTerms h) rfl
    · exact ne_equals_of_isTermChar (.inr (List.mem_singleton.1 h)) rfl
  not_mem_right h := by
    rcases List.mem_cons.1 h with h | h
    · exact ne_equals_of_isTermChar (.inr h) rfl
    · exact ne_equals_of_isTermChar (.inl (isTermChar_of_mem_text h)) rfl
  alone _ := by simp

theorem exists_renderTerms_eq_cons (xs : List Float) :
    ∃ c t, renderTerms xs = c :: t ∧ isTermChar c = true := by
  cases xs with
  | nil => exact ⟨'0', [], rfl, rfl⟩
  | cons x xs =>
    obtain ⟨c, t, ht⟩ := List.exists_cons_of_ne_nil (text_ne_nil x)
    refine ⟨c, t ++ columnName 1 ++ renderRest 2 xs, ?_, ?_⟩
    · rw [renderTerms, ht]
      rfl
    · apply isTermChar_of_mem_text (x := x)
      rw [ht]
      exact List.mem_cons_self

theorem trim_render (c : Constraint) : Blank.trim c.render = c.render := by
  have htrim := Blank.trim_append (a := []) (t := c.render) (b := []) nofun nofun
  rw [List.nil_append, List.append_nil] at htrim
  apply htrim
  · obtain ⟨a, t, ht, ha⟩ := exists_renderTerms_eq_cons c.coefficients
    rw [render, ht]
    rintro b ⟨⟩
    exact not_isBlank_of_isTermChar ha
  · have hlast : c.render.getLast? = (Double.text c.value).getLast? := by
      have hrender : c.render = (renderTerms c.coefficients ++
          ' ' :: c.comparison.symbol.toList ++ [' ']) ++ Double.text c.value := by
        simp [render]
      rw [hrender, List.getLast?_append, Option.or_of_isSome]
      rw [List.getLast?_eq_some_getLast (text_ne_nil _)]
      rfl
    intro b hb
    rw [hlast] at hb
    exact not_isBlank_of_isTermChar (isTermChar_of_mem_text (List.mem_of_getLast? hb))

theorem read_render (c : Constraint) :
    read c.render = .ok ⟨c.coefficients.map reread, c.comparison, rereadValue c.value⟩ := by
  have hdivides := divides_render c
  rw [← trim_render c] at hdivides
  rw [read_of_divides hdivides, readCoefficients_renderTerms, leadingNumber_blank_text]

theorem reread_eq_self_iff {x : Float} : reread x = x ↔ Double.isFinite x = true := by
  cases hx : Double.isFinite x with
  | true => simp [reread, hx]
  | false =>
    have hne : reread x ≠ x := by
      intro heq
      rw [reread_of_not_isFinite hx] at heq
      rw [← heq, Double.signedOne, Double.isFinite_ofPosition (by decide)] at hx
      cases hx
    simp [hne]

theorem rereadValue_eq_self_iff {x : Float} : rereadValue x = x ↔ Double.isFinite x = true := by
  cases hx : Double.isFinite x with
  | true => simp [rereadValue, hx]
  | false =>
    have hne : rereadValue x ≠ x := by
      intro heq
      rw [rereadValue, hx, if_neg Bool.false_ne_true] at heq
      rw [← heq, Double.zero, Double.isFinite_ofPosition (by decide)] at hx
      cases hx
    simp [hne]

/-- Reading what was written changes nothing but the numbers that are not finite. -/
theorem ofText_toString (c : Constraint) :
    ofText (toString c) =
      .ok ⟨c.coefficients.map reread, c.comparison, rereadValue c.value⟩ ∧
    (ofText (toString c) = .ok c ↔
      (∀ x ∈ c.coefficients, Double.isFinite x = true) ∧ Double.isFinite c.value = true) := by
  have hread : ofText (toString c) =
      .ok ⟨c.coefficients.map reread, c.comparison, rereadValue c.value⟩ := by
    have htext : (toString c).toList = c.render := String.toList_ofList
    rw [ofText, htext, read_render]
    rfl
  refine ⟨hread, ?_⟩
  rw [hread]
  obtain ⟨coefficients, comparison, value⟩ := c
  have hmap : coefficients.map reread = coefficients ↔
      ∀ x ∈ coefficients, Double.isFinite x = true := by
    simp only [← reread_eq_self_iff]
    have hid := List.map_inj_left (l := coefficients) (f := reread) (g := id)
    rwa [List.map_id] at hid
  simp only [Except.ok.injEq, Constraint.mk.injEq, hmap, rereadValue_eq_self_iff, true_and]

end LinProg.Constraint
