import LinProg.ConstraintReader

/-!
# Cutting a text at its comparison symbols

Every comparison symbol has one `=`, and every `=` is part of one symbol, so that `cut` finds as
many symbols as the text has of these characters (`length_cut`). A text with one `=` is divided
there in a left side, a symbol and a right side, the symbol being as long as it can be, and this is
what `cut` finds (`cut_of_divides`).
-/

namespace LinProg.Constraint

/-- There are as many comparison symbols as characters `=`. -/
theorem length_cut (t : List Char) : (cut t).2.length = t.count '=' := by
  fun_induction cut t with
  | case1 => rfl
  | case2 t ih => simp [ih]
  | case3 t ih => simp [ih]
  | case4 t ih => simp [ih]
  | case5 c t hless hgreater hequal ih =>
    have hc : c ≠ '=' := fun h => hequal h
    rw [ih, List.count_cons_of_ne hc]

theorem cut_cons {c : Char} {t : List Char} (hc : c ≠ '=')
    (ht : t.head? = some '=' → c ≠ '<' ∧ c ≠ '>') : cut (c :: t) = (c :: (cut t).1, (cut t).2) := by
  rw [cut]
  · rintro u rfl rfl
    exact (ht rfl).1 rfl
  · rintro u rfl rfl
    exact (ht rfl).2 rfl
  · exact hc

/-- A text without `=` is kept whole, unless a symbol begins with its last character. -/
theorem cut_append {s t : List Char} (hs : '=' ∉ s)
    (ht : t.head? = some '=' → s.getLast? ≠ some '<' ∧ s.getLast? ≠ some '>') :
    cut (s ++ t) = (s ++ (cut t).1, (cut t).2) := by
  induction s with
  | nil => rfl
  | cons c s ih =>
    have hc : c ≠ '=' := (List.ne_of_not_mem_cons hs).symm
    have hrest := List.not_mem_of_not_mem_cons hs
    cases s with
    | nil => exact cut_cons hc (by simpa using ht)
    | cons d s =>
      rw [List.getLast?_cons_cons] at ht
      have hhead : (d :: s ++ t).head? = some '=' → c ≠ '<' ∧ c ≠ '>' := by
        intro h
        exact absurd (Option.some.inj h) (List.ne_of_not_mem_cons hrest).symm
      rw [List.cons_append, cut_cons hc hhead, ih hrest ht]
      rfl

theorem cut_symbol (c : Comparison) (t : List Char) :
    cut (c.symbol.toList ++ t) = ([], (c.symbol.toList, (cut t).1) :: (cut t).2) := by
  cases c <;> rfl

/-- A text has one comparison symbol, which is `=` only if no longer symbol ends there. -/
structure Divides (t left : List Char) (c : Comparison) (right : List Char) : Prop where
  eq_append : t = left ++ (c.symbol.toList ++ right)
  not_mem_left : '=' ∉ left
  not_mem_right : '=' ∉ right
  alone : c = .equal → left.getLast? ≠ some '<' ∧ left.getLast? ≠ some '>'

theorem cut_of_divides {t left right : List Char} {c : Comparison}
    (h : Divides t left c right) : cut t = (left, [(c.symbol.toList, right)]) := by
  have hright : cut right = (right, []) := by
    have hcut := cut_append (t := []) h.not_mem_right nofun
    rw [List.append_nil] at hcut
    rw [hcut]
    simp [cut]
  have hhead : (c.symbol.toList ++ right).head? = some '=' →
      left.getLast? ≠ some '<' ∧ left.getLast? ≠ some '>' := by
    intro hc
    apply h.alone
    cases c with
    | equal => rfl
    | lessOrEqual => cases hc
    | greaterOrEqual => cases hc
  rw [h.eq_append, cut_append h.not_mem_left hhead, cut_symbol, hright, List.append_nil]

theorem Divides.count_eq_one {t left right : List Char} {c : Comparison}
    (h : Divides t left c right) : t.count '=' = 1 := by
  rw [← length_cut, cut_of_divides h]
  rfl

/-- A text is divided at its only `=`. -/
theorem exists_divides {t : List Char} (h : t.count '=' = 1) :
    ∃ left c right, Divides t left c right := by
  have hmem : '=' ∈ t := List.count_pos_iff.1 (by omega)
  obtain ⟨s, right, rfl⟩ := List.append_of_mem hmem
  rw [List.count_append, List.count_cons_self] at h
  have hs : '=' ∉ s := List.count_eq_zero.1 (by omega)
  have hright : '=' ∉ right := List.count_eq_zero.1 (by omega)
  by_cases hless : s.getLast? = some '<'
  · obtain ⟨left, rfl⟩ := List.getLast?_eq_some_iff.1 hless
    refine ⟨left, .lessOrEqual, right, ?_, ?_, hright, nofun⟩
    · simp [Comparison.symbol]
    · exact fun hl => hs (List.mem_append_left _ hl)
  · by_cases hgreater : s.getLast? = some '>'
    · obtain ⟨left, rfl⟩ := List.getLast?_eq_some_iff.1 hgreater
      refine ⟨left, .greaterOrEqual, right, ?_, ?_, hright, nofun⟩
      · simp [Comparison.symbol]
      · exact fun hl => hs (List.mem_append_left _ hl)
    · exact ⟨s, .equal, right, rfl, hs, hright, fun _ => ⟨hless, hgreater⟩⟩

theorem read_of_divides {t left right : List Char} {c : Comparison}
    (h : Divides (Blank.trim t) left c right) :
    read t = .ok ⟨readCoefficients left, c, leadingNumber right⟩ := by
  simp only [read, cut_of_divides h, Comparison.ofSymbol_symbol]

theorem read_of_count_ne_one {t : List Char} (h : (Blank.trim t).count '=' ≠ 1) :
    read t = .error ⟨Blank.trim t, (Blank.trim t).count '='⟩ := by
  rw [← length_cut] at h ⊢
  simp only [read]
  split
  next left symbol right hcut =>
    rw [hcut] at h
    exact absurd rfl h
  next left symbols hother hcut => rw [hcut]

end LinProg.Constraint
