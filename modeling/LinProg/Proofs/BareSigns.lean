import LinProg.Proofs.Factorization
import LinProg.Proofs.Octets

/-!
# Signs without a magnitude

A segment before a name may end in a sign, and is then read as if a 1 stood behind the sign. That
1 is seen only where the sign is the whole segment: a number that begins earlier ends before the
sign, and the text behind it does not matter (`Numeral.scan_append`). Segments have no letters, so
no coefficient has an exponent either.
-/

namespace LinProg

namespace Numeral

/-- What the sign and the digits at the start of a text leave of it: an exponent would come next. -/
def behindDigits (t : List Char) : List Char := (scanFraction (scanDigits (scanSign t).2).2).2

/-- Behind its digits the text has the marker of an exponent, which is then looked for. -/
def ReachesExponent (t : List Char) : Prop := ∃ c ∈ (behindDigits t).head?, c = 'e' ∨ c = 'E'

variable {t u : List Char}

theorem behindDigits_suffix (t : List Char) : behindDigits t <:+ t :=
  (scanFraction_suffix _).trans ((scanDigits_suffix _).trans (scanSign_suffix t))

theorem not_reachesExponent (h : ∀ c ∈ t, c.isAlpha = false) : ¬ ReachesExponent t := by
  rintro ⟨c, hc, hmarker⟩
  have hletter := h c ((behindDigits_suffix t).subset (List.mem_of_mem_head? hc))
  rcases hmarker with rfl | rfl <;> cases hletter

theorem scanExponent_of_not_reachesExponent (h : ¬ ReachesExponent t) :
    scanExponent (behindDigits t) = (0, behindDigits t) := by
  apply scanExponent_of_head?
  intro c hc
  constructor
  · rintro rfl
    exact h ⟨_, hc, .inl rfl⟩
  · rintro rfl
    exact h ⟨_, hc, .inr rfl⟩

theorem exponent_of_scan {k : Numeral} (h : ¬ ReachesExponent t) (hk : scan t = some (k, u)) :
    k.exponent = 0 := by
  have hexponent := scanExponent_of_not_reachesExponent h
  simp only [behindDigits] at hexponent
  simp only [scan, hexponent] at hk
  split at hk
  next => cases hk
  next =>
    obtain ⟨rfl, -⟩ := Prod.mk.inj (Option.some.inj hk)
    rfl

/-- Only a first character can be taken for a sign. -/
theorem scanSign_append (hne : t ≠ []) (u : List Char) :
    scanSign (t ++ u) = ((scanSign t).1, (scanSign t).2 ++ u) := by
  fun_cases scanSign t with
  | case1 t => rfl
  | case2 t => rfl
  | case3 t hminus hplus =>
    apply scanSign_of_head?
    intro c hc
    rw [List.head?_append, Option.or_of_isSome (List.isSome_head?.2 hne)] at hc
    obtain ⟨rest, rfl⟩ := List.head?_eq_some_iff.1 hc
    constructor
    · rintro rfl
      exact hplus rest rfl
    · rintro rfl
      exact hminus rest rfl

theorem scanDigits_cons (c : Char) (t : List Char) :
    scanDigits (c :: t) =
      if c.isDigit then (c :: (scanDigits t).1, (scanDigits t).2) else ([], c :: t) := by
  simp only [scanDigits, List.takeWhile_cons, List.dropWhile_cons]
  split <;> rfl

theorem scanDigits_append_right (t : List Char) (hu : ∀ c ∈ u.head?, c.isDigit = false) :
    scanDigits (t ++ u) = ((scanDigits t).1, (scanDigits t).2 ++ u) := by
  induction t with
  | nil => exact scanDigits_append_of_allDigits (List.forall_mem_nil _) hu
  | cons c t ih =>
    rw [List.cons_append, scanDigits_cons, scanDigits_cons, ih]
    split <;> rfl

theorem scanFraction_append (t : List Char) (hu : ∀ c ∈ u.head?, c.isDigit = false ∧ c ≠ '.') :
    scanFraction (t ++ u) = ((scanFraction t).1, (scanFraction t).2 ++ u) := by
  fun_cases scanFraction t with
  | case1 t => exact scanDigits_append_right t fun c hc => (hu c hc).1
  | case2 t hpoint =>
    apply scanFraction_of_head?
    intro c hc
    cases t with
    | nil => exact (hu c hc).2
    | cons d t =>
      obtain rfl : d = c := Option.some.inj hc
      rintro rfl
      exact hpoint t rfl

/-- A sign behind the digits of a numeral ends it, with all that follows. -/
theorem scan_append (hne : t ≠ []) (ht : ¬ ReachesExponent t)
    (hu : ∀ c ∈ u.head?, c = '+' ∨ c = '-') :
    scan (t ++ u) = (scan t).map fun r => (r.1, r.2 ++ u) := by
  have hpoint : ∀ c ∈ u.head?, c.isDigit = false ∧ c ≠ '.' := by
    intro c hc
    rcases hu c hc with rfl | rfl <;> decide
  have hbehind : behindDigits (t ++ u) = behindDigits t ++ u := by
    simp only [behindDigits, scanSign_append hne,
      scanDigits_append_right _ fun c hc => (hpoint c hc).1, scanFraction_append _ hpoint]
  have ht' : ¬ ReachesExponent (t ++ u) := by
    rintro ⟨c, hc, hmarker⟩
    rw [hbehind, List.head?_append] at hc
    cases h : (behindDigits t).head? with
    | none =>
      rw [h] at hc
      rcases hu c hc with rfl | rfl <;> simp at hmarker
    | some d =>
      rw [h] at hc
      obtain rfl : d = c := Option.some.inj hc
      exact ht ⟨d, h, hmarker⟩
  have hexponent := scanExponent_of_not_reachesExponent ht
  have hexponent' := scanExponent_of_not_reachesExponent ht'
  rw [hbehind] at hexponent'
  simp only [behindDigits] at hexponent hexponent'
  simp only [scan, scanSign_append hne, scanDigits_append_right _ fun c hc => (hpoint c hc).1,
    scanFraction_append _ hpoint, hexponent, hexponent']
  split <;> rfl

end Numeral

theorem leadingNumber_append {t u : List Char} (hne : t ≠ [])
    (ht : ∀ c ∈ t, Blank.isBlank c = false ∧ c.isAlpha = false)
    (hu : ∀ c ∈ u.head?, c = '+' ∨ c = '-') : leadingNumber (t ++ u) = leadingNumber t := by
  have hexponent := Numeral.not_reachesExponent fun c hc => (ht c hc).2
  obtain ⟨c, rest, rfl⟩ := List.exists_cons_of_ne_nil hne
  have hblank := (ht c List.mem_cons_self).1
  rw [leadingNumber, leadingNumber, List.cons_append, trimStart_of_not_isBlank hblank,
    trimStart_of_not_isBlank hblank, ← List.cons_append, Numeral.scan_append hne hexponent hu]
  cases Numeral.scan (c :: rest) <;> rfl

namespace Constraint

/-- The characters of a piece are those of the text that are no letters. -/
theorem mem_of_mem_pieces {t piece : List Char} (h : piece ∈ pieces t) :
    ∀ c ∈ piece, c ∈ t ∧ c.isAlpha = false := by
  induction t using pieces.induct with
  | case1 t hdrop =>
    rw [pieces_of_not_isAlpha (by simpa using hdrop)] at h
    cases h
  | case2 t a rest hdrop _ ih =>
    rw [pieces_of_dropWhile hdrop] at h
    intro c hc
    rcases List.mem_cons.1 h with rfl | h
    · have hletter := List.all_eq_true.1 List.all_takeWhile c hc
      exact ⟨(List.takeWhile_prefix _).subset hc, by simpa using hletter⟩
    · obtain ⟨hmem, hletter⟩ := ih h c hc
      have hrest := (List.dropWhile_suffix _).subset ((List.dropWhile_suffix _).subset hmem)
      have hdropped := List.mem_cons_of_mem a hrest
      rw [← hdrop] at hdropped
      exact ⟨(List.dropWhile_suffix _).subset hdropped, hletter⟩

theorem mem_of_mem_withSign {t : List Char} {c : Char} (h : c ∈ withSign t) : c = '+' ∨ c ∈ t := by
  fun_cases withSign t with
  | case1 => cases h
  | case2 d t hsign =>
    rw [withSign, if_pos hsign] at h
    exact .inr h
  | case3 d t hsign =>
    rw [withSign, if_neg hsign] at h
    exact List.mem_cons.1 h

/-- The pieces of a left-hand side have neither blanks nor letters. -/
theorem plain_of_mem_pieces {t piece : List Char}
    (h : piece ∈ pieces (withSign (Blank.squeeze t))) :
    ∀ c ∈ piece, Blank.isBlank c = false ∧ c.isAlpha = false := by
  intro c hc
  obtain ⟨hmem, hletter⟩ := mem_of_mem_pieces h c hc
  refine ⟨?_, hletter⟩
  rcases mem_of_mem_withSign hmem with rfl | hmem
  · decide
  · exact Blank.isBlank_of_mem_squeeze hmem

theorem pieceCoefficient_append {body : List Char} {sign : Char} (hne : body ≠ [])
    (hplain : ∀ c ∈ body, Blank.isBlank c = false ∧ c.isAlpha = false)
    (hsign : sign = '+' ∨ sign = '-') : pieceCoefficient (body ++ [sign]) = leadingNumber body := by
  obtain ⟨negative, htrailing⟩ : ∃ negative, trailingSign? (body ++ [sign]) = some negative := by
    rw [trailingSign?, List.getLast?_concat]
    rcases hsign with rfl | rfl
    · exact ⟨false, rfl⟩
    · exact ⟨true, rfl⟩
  have hone : ∀ c ∈ [sign, '1'].head?, c = '+' ∨ c = '-' := by
    rintro c ⟨⟩
    exact hsign
  calc pieceCoefficient (body ++ [sign])
      = leadingNumber (body ++ [sign] ++ ['1']) := by
        simp [pieceCoefficient, htrailing, hne]
    _ = leadingNumber (body ++ [sign, '1']) := by rw [List.append_assoc]; rfl
    _ = leadingNumber body := leadingNumber_append hne hplain hone

theorem pieceCoefficient_of_getLast? {piece : List Char} (hne : piece ≠ [])
    (h : ∀ c ∈ piece.getLast?, c ≠ '+' ∧ c ≠ '-') :
    pieceCoefficient piece = leadingNumber piece := by
  have htrailing : trailingSign? piece = none := by
    unfold trailingSign?
    split
    next hlast => exact absurd rfl (h _ hlast).2
    next hlast => exact absurd rfl (h _ hlast).1
    next => rfl
  rw [pieceCoefficient, htrailing, if_neg (by simpa using hne)]

/-- A piece that is no more than a sign counts as one. If it is longer and ends in a sign, neither
that sign nor the 1 put behind it is read, and in no piece is there an exponent to be read. -/
theorem readCoefficients_of_bare_signs (t : List Char) :
    readCoefficients t = (pieces (withSign (Blank.squeeze t))).map pieceCoefficient ∧
    ∀ piece ∈ pieces (withSign (Blank.squeeze t)),
      (∀ c ∈ piece, Blank.isBlank c = false ∧ c.isAlpha = false) ∧
      (piece = [] ∨ piece = ['+'] → pieceCoefficient piece = Double.signedOne false) ∧
      (piece = ['-'] → pieceCoefficient piece = Double.signedOne true) ∧
      (∀ body sign, piece = body ++ [sign] → body ≠ [] → sign = '+' ∨ sign = '-' →
        pieceCoefficient piece = leadingNumber body) ∧
      (piece ≠ [] → (∀ c ∈ piece.getLast?, c ≠ '+' ∧ c ≠ '-') →
        pieceCoefficient piece = leadingNumber piece) ∧
      ∀ text ∈ [piece, piece ++ ['1']],
        ¬ Numeral.ReachesExponent (Blank.trimStart text) ∧
        ∀ k rest, Numeral.scan (Blank.trimStart text) = some (k, rest) → k.exponent = 0 := by
  refine ⟨rfl, ?_⟩
  intro piece hpiece
  have hplain := plain_of_mem_pieces hpiece
  refine ⟨hplain, ?_, ?_, ?_, pieceCoefficient_of_getLast?, ?_⟩
  · rintro (rfl | rfl) <;> rfl
  · rintro rfl
    rfl
  · rintro body sign rfl hne hsign
    exact pieceCoefficient_append hne (fun c hc => hplain c (List.mem_append_left _ hc)) hsign
  · intro text htext
    have hletters : ∀ c ∈ text, c.isAlpha = false := by
      simp only [List.mem_cons, List.not_mem_nil, or_false] at htext
      rcases htext with rfl | rfl
      · exact fun c hc => (hplain c hc).2
      · intro c hc
        rcases List.mem_append.1 hc with hc | hc
        · exact (hplain c hc).2
        · rw [List.mem_singleton.1 hc]
          rfl
    have hexponent := Numeral.not_reachesExponent fun c hc =>
      hletters c ((List.dropWhile_suffix Blank.isBlank).subset hc)
    exact ⟨hexponent, fun k rest hk => Numeral.exponent_of_scan hexponent hk⟩

/-- A sign between a number and the name behind it, and a second sign before a name. -/
theorem readCoefficients_second_sign :
    readCoefficients "5 - x".toList = [Double.ofRat 5] ∧
      readCoefficients "+-x".toList = [Double.zero] := by
  let x : Name := ⟨['x'], [], nofun, List.all_eq_true.1 rfl, List.forall_mem_nil _⟩
  have hcut (s : List Char) (hs : ∀ c ∈ s, c.isAlpha = false) :
      pieces (s ++ (x.text ++ [])) = [s] := by
    rw [pieces_append hs (by rintro c ⟨⟩), pieces_of_not_isAlpha (List.forall_mem_nil _)]
  have hfive : pieces (withSign (Blank.squeeze "5 - x".toList)) = [['+', '5', '-']] :=
    hcut ['+', '5', '-'] (by simp)
  have htwo : pieces (withSign (Blank.squeeze "+-x".toList)) = [['+', '-']] :=
    hcut ['+', '-'] (by simp)
  obtain ⟨hread, hpieces⟩ := readCoefficients_of_bare_signs "5 - x".toList
  obtain ⟨hread', hpieces'⟩ := readCoefficients_of_bare_signs "+-x".toList
  rw [hfive] at hread hpieces
  rw [htwo] at hread' hpieces'
  obtain ⟨-, -, -, hsign, -, -⟩ := hpieces _ List.mem_cons_self
  obtain ⟨-, -, -, hsign', -, -⟩ := hpieces' _ List.mem_cons_self
  have hvalue : leadingNumber ['+', '5'] = Double.ofRat 5 := by decide +kernel
  have hvalue' : leadingNumber ['+'] = Double.zero := rfl
  rw [hread, hread', List.map_singleton, List.map_singleton,
    hsign ['+', '5'] '-' rfl nofun (.inr rfl), hsign' ['+'] '-' rfl nofun (.inr rfl), hvalue,
    hvalue']
  exact ⟨rfl, rfl⟩

end Constraint

end LinProg
