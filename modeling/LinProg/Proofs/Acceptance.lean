import LinProg.Proofs.Octets

/-!
# Which texts are constraints

A text is a constraint just if it has one `=`, whatever else stands in it, and is read as its two
sides at the symbol around this character (`ofText_acceptance`). The only error tells how many of
these characters there are. All this is done without cutting a character in two, also where the
text is read by its bytes.
-/

namespace LinProg.Constraint

theorem count_trim (t : List Char) : (Blank.trim t).count '=' = t.count '=' := by
  have hblank : ∀ a, Blank.AllBlank a → a.count '=' = 0 := by
    intro a ha
    apply List.count_eq_zero.2
    intro h
    exact absurd (ha '=' h) (by decide)
  obtain ⟨a, b, ha, hb, ht⟩ := Blank.exists_eq_append_trim t
  conv_rhs => rw [ht]
  rw [List.count_append, List.count_append, hblank a ha, hblank b hb, Nat.zero_add, Nat.add_zero]

theorem ofText_of_divides {text : String} {left right : List Char} {c : Comparison}
    (h : Divides (Blank.trim text.toList) left c right) :
    ofText text = .ok ⟨readCoefficients left, c, leadingNumber right⟩ := by
  rw [ofText, read_of_divides h]
  rfl

theorem ofText_of_count_ne_one {text : String} (h : text.toList.count '=' ≠ 1) :
    ofText text = .error (.invalidFormat
      (SymbolCount.mk (Blank.trim text.toList) (text.toList.count '=')).detail) := by
  rw [← count_trim] at h ⊢
  rw [ofText, read_of_count_ne_one h]
  rfl

theorem exists_divides_of_ofText {text : String} {c : Constraint} (h : ofText text = .ok c) :
    ∃ left right, Divides (Blank.trim text.toList) left c.comparison right ∧
      c.coefficients = readCoefficients left ∧ c.value = leadingNumber right := by
  by_cases hcount : text.toList.count '=' = 1
  · rw [← count_trim] at hcount
    obtain ⟨left, symbol, right, hdivides⟩ := exists_divides hcount
    rw [ofText_of_divides hdivides] at h
    obtain rfl := Except.ok.inj h
    exact ⟨left, right, hdivides, rfl, rfl⟩
  · rw [ofText_of_count_ne_one hcount] at h
    cases h

/-- The bytes of a text are cut at the same symbol, and not within a character. -/
theorem Divides.cut_octets {t left right : List Char} {c : Comparison}
    (h : Divides t left c right) :
    cut (octets t) = (octets left, [(octets c.symbol.toList, octets right)]) := by
  rw [Constraint.cut_octets, cut_of_divides h]
  rfl

theorem Divides.isValid_left {t left right : List Char} {c : Comparison}
    (h : Divides t left c right) :
    String.Pos.Raw.IsValid (String.ofList t) ⟨(octets left).length⟩ := by
  apply isValid_of_prefix
  rw [h.eq_append]
  exact List.prefix_append ..

theorem Divides.isValid_symbol {t left right : List Char} {c : Comparison}
    (h : Divides t left c right) :
    String.Pos.Raw.IsValid (String.ofList t)
      ⟨(octets left).length + (octets c.symbol.toList).length⟩ := by
  rw [← List.length_append, ← octets_append]
  apply isValid_of_prefix
  rw [h.eq_append, ← List.append_assoc]
  exact List.prefix_append ..

/-- A text is a constraint just if it has one `=`. It is then read by its two sides, and its bytes
are cut between characters; otherwise the error has the number of these characters. -/
theorem ofText_acceptance (text : String) :
    ((∃ c, ofText text = .ok c) ↔ text.toList.count '=' = 1) ∧
    (text.toList.count '=' ≠ 1 →
      let trimmed := String.ofList (Blank.trim text.toList)
      let found := text.toList.count '='
      ofText text = .error (.invalidFormat
        s!"expected exactly one of '<=', '=', '>=' in '{trimmed}', found {found}")) ∧
    (∀ c, ofText text = .ok c → ∃ left right,
      Divides (Blank.trim text.toList) left c.comparison right ∧
      c.coefficients = readCoefficients left ∧ c.value = leadingNumber right ∧
      cut (octets (Blank.trim text.toList)) =
        (octets left, [(octets c.comparison.symbol.toList, octets right)]) ∧
      String.Pos.Raw.IsValid (String.ofList (Blank.trim text.toList)) ⟨(octets left).length⟩ ∧
      String.Pos.Raw.IsValid (String.ofList (Blank.trim text.toList))
        ⟨(octets left).length + (octets c.comparison.symbol.toList).length⟩) ∧
    ∀ (t : List Char) (n : Numeral) (rest : List Char),
      Numeral.scan (octets t) = some (n, rest) →
        String.Pos.Raw.IsValid (String.ofList t) ⟨(octets t).length - rest.length⟩ := by
  refine ⟨⟨?_, ?_⟩, ?_, ?_, fun t n rest h => Numeral.isValid_of_scan_octets h⟩
  · rintro ⟨c, hc⟩
    obtain ⟨left, right, hdivides, -⟩ := exists_divides_of_ofText hc
    rw [← count_trim, hdivides.count_eq_one]
  · intro hcount
    rw [← count_trim] at hcount
    obtain ⟨left, symbol, right, hdivides⟩ := exists_divides hcount
    exact ⟨_, ofText_of_divides hdivides⟩
  · exact ofText_of_count_ne_one
  · intro c hc
    obtain ⟨left, right, hdivides, hleft, hright⟩ := exists_divides_of_ofText hc
    exact ⟨left, right, hdivides, hleft, hright, hdivides.cut_octets, hdivides.isValid_left,
      hdivides.isValid_symbol⟩

/-- Two symbols are one too many. -/
theorem ofText_two_symbols :
    "0 <= x <= 5".toList.count '=' ≠ 1 ∧ ofText "0 <= x <= 5" = .error (.invalidFormat
      "expected exactly one of '<=', '=', '>=' in '0 <= x <= 5', found 2") :=
  ⟨by decide, (ofText_acceptance "0 <= x <= 5").2.1 (by decide)⟩

end LinProg.Constraint
