import LinProg.Proofs.SpacedText
import LinProg.Proofs.SymbolCut
import LinProg.Proofs.TextCharacters

/-!
# Reading a text byte by byte

The readers look for characters of ASCII only, which UTF-8 writes as one byte each and never as part
of another character. So they find in the bytes of a text just what they find in the text
(`cut_octets`, `scan_octets`), and wherever they cut the bytes, they cut between two characters.
-/

namespace LinProg

/-- The bytes of a character, each taken for a character of its own. -/
def charOctets (c : Char) : List Char := (String.utf8EncodeChar c).map Char.ofUInt8

/-- The bytes of a text. -/
def octets (t : List Char) : List Char := t.flatMap charOctets

theorem octets_nil : octets [] = [] := rfl

theorem octets_append (s t : List Char) : octets (s ++ t) = octets s ++ octets t :=
  List.flatMap_append

theorem octets_cons (c : Char) (t : List Char) : octets (c :: t) = charOctets c ++ octets t :=
  List.flatMap_cons

theorem toNat_ofUInt8 (b : UInt8) : (Char.ofUInt8 b).toNat = b.toNat := by
  change b.toUInt32.toNat = b.toNat
  exact UInt8.toNat_toUInt32 b

/-- A character of ASCII is its own byte. -/
theorem charOctets_of_lt {c : Char} (h : c.toNat < 128) : charOctets c = [c] := by
  have hc : c.val.toNat ≤ 127 := by
    change c.toNat ≤ 127
    omega
  simp only [charOctets, String.utf8EncodeChar, if_pos hc, List.map_cons, List.map_nil]
  congr 1
  apply Char.ext
  apply UInt32.toNat_inj.1
  change (Char.ofUInt8 (UInt8.ofNat c.val.toNat)).toNat = c.val.toNat
  rw [toNat_ofUInt8, UInt8.toNat_ofNat']
  omega

/-- The bytes of every other character are none of ASCII. -/
theorem le_of_mem_charOctets {c a : Char} (h : 128 ≤ c.toNat) (ha : a ∈ charOctets c) :
    128 ≤ a.toNat := by
  have hc : 128 ≤ c.val.toNat := h
  obtain ⟨b, hb, rfl⟩ := List.mem_map.1 ha
  rw [toNat_ofUInt8]
  simp only [String.utf8EncodeChar, if_neg (show ¬ c.val.toNat ≤ 127 by omega)] at hb
  split at hb
  · simp only [List.mem_cons, List.not_mem_nil, or_false] at hb
    rcases hb with rfl | rfl <;> rw [UInt8.toNat_ofNat'] <;> omega
  · split at hb
    · simp only [List.mem_cons, List.not_mem_nil, or_false] at hb
      rcases hb with rfl | rfl | rfl <;> rw [UInt8.toNat_ofNat'] <;> omega
    · simp only [List.mem_cons, List.not_mem_nil, or_false] at hb
      rcases hb with rfl | rfl | rfl | rfl <;> rw [UInt8.toNat_ofNat'] <;> omega

theorem charOctets_ne_nil (c : Char) : charOctets c ≠ [] := by
  simp [charOctets, String.utf8EncodeChar_ne_nil]

/-- Among the bytes of a character, those of ASCII are the character itself. -/
theorem eq_of_mem_charOctets {a c : Char} (ha : a.toNat < 128) (h : a ∈ charOctets c) : a = c := by
  rcases Nat.lt_or_ge c.toNat 128 with hc | hc
  · rw [charOctets_of_lt hc] at h
    exact List.mem_singleton.1 h
  · have := le_of_mem_charOctets hc h
    omega

theorem head?_octets {a : Char} {t : List Char} (ha : a.toNat < 128)
    (h : (octets t).head? = some a) : t.head? = some a := by
  cases t with
  | nil => cases h
  | cons c t =>
    rw [octets_cons, List.head?_append,
      Option.or_of_isSome (List.isSome_head?.2 (charOctets_ne_nil c))] at h
    rw [List.head?_cons, eq_of_mem_charOctets ha (List.mem_of_mem_head? h)]

/-- The symbols that are found in the bytes are those of the text. -/
theorem Constraint.cut_octets (t : List Char) :
    cut (octets t) = (octets (cut t).1, (cut t).2.map fun p => (octets p.1, octets p.2)) := by
  have hascii : ∀ c ∈ ['<', '=', '>'], charOctets c = [c] := by
    simp only [List.mem_cons, List.not_mem_nil, or_false]
    rintro c (rfl | rfl | rfl) <;> exact charOctets_of_lt (by decide)
  have hless := hascii '<' (by simp)
  have hequal := hascii '=' (by simp)
  have hgreater := hascii '>' (by simp)
  fun_induction cut t with
  | case1 => rfl
  | case2 t ih => simp [octets_cons, octets_nil, hless, hequal, cut, ih]
  | case3 t ih => simp [octets_cons, octets_nil, hgreater, hequal, cut, ih]
  | case4 t ih => simp [octets_cons, octets_nil, hequal, cut, ih]
  | case5 c t hl hg he ih =>
    have hmem : '=' ∉ charOctets c := fun h => he (eq_of_mem_charOctets (by decide) h).symm
    have hhead : (octets t).head? = some '=' →
        (charOctets c).getLast? ≠ some '<' ∧ (charOctets c).getLast? ≠ some '>' := by
      intro h
      obtain ⟨u, rfl⟩ := List.head?_eq_some_iff.1 (head?_octets (by decide) h)
      refine ⟨fun hlast => hl u ?_ rfl, fun hlast => hg u ?_ rfl⟩
      · exact (eq_of_mem_charOctets (by decide) (List.mem_of_getLast? hlast)).symm
      · exact (eq_of_mem_charOctets (by decide) (List.mem_of_getLast? hlast)).symm
    rw [octets_cons, cut_append hmem hhead, ih, octets_cons]

theorem octets_of_lt {t : List Char} (h : ∀ c ∈ t, c.toNat < 128) : octets t = t := by
  induction t with
  | nil => rfl
  | cons c t ih =>
    obtain ⟨hc, ht⟩ := List.forall_mem_cons.1 h
    rw [octets_cons, charOctets_of_lt hc, ih ht]
    rfl

/-- The bytes of the start of a text end between two of its characters. -/
theorem isValid_of_prefix {s t : List Char} (h : s <+: t) :
    String.Pos.Raw.IsValid (String.ofList t) ⟨(octets s).length⟩ := by
  obtain ⟨u, rfl⟩ := h
  refine String.Pos.Raw.isValid_iff_exists_append.2
    ⟨String.ofList s, String.ofList u, String.ofList_append, ?_⟩
  simp [String.rawEndPos, String.utf8ByteSize, List.utf8Encode, octets, charOctets,
    List.length_flatMap]

namespace Numeral

theorem scanDigits_octets (t : List Char) :
    scanDigits (octets t) = ((scanDigits t).1, octets (scanDigits t).2) := by
  have hdigits : AllDigits (scanDigits t).1 := fun c hc => isDigit_of_mem_scanDigits hc
  have hlt : ∀ c : Char, c.isDigit = true → c.toNat < 128 := by
    intro c hc
    have := isDigit_iff.1 hc
    omega
  have hrest : ∀ c ∈ (octets (scanDigits t).2).head?, c.isDigit = false := by
    intro c hc
    rw [Bool.eq_false_iff]
    intro hdigit
    have hhead := List.head?_dropWhile_not Char.isDigit t
    rw [show (t.dropWhile Char.isDigit).head? = some c from head?_octets (hlt c hdigit) hc]
      at hhead
    exact Bool.false_ne_true (hhead.symm.trans hdigit)
  have hsplit : octets t = (scanDigits t).1 ++ octets (scanDigits t).2 := by
    conv_lhs => rw [← scanDigits_append t]
    rw [octets_append, octets_of_lt fun c hc => hlt c (hdigits c hc)]
  rw [hsplit, scanDigits_append_of_allDigits hdigits hrest]

theorem octets_cons_of_lt {c : Char} (t : List Char) (h : c.toNat < 128) :
    octets (c :: t) = c :: octets t := by
  rw [octets_cons, charOctets_of_lt h]
  rfl

theorem scanSign_octets (t : List Char) :
    scanSign (octets t) = ((scanSign t).1, octets (scanSign t).2) := by
  fun_cases scanSign t with
  | case1 t =>
    rw [octets_cons_of_lt t (by decide)]
    rfl
  | case2 t =>
    rw [octets_cons_of_lt t (by decide)]
    rfl
  | case3 t hminus hplus =>
    apply scanSign_of_head?
    intro c hc
    constructor
    · rintro rfl
      obtain ⟨u, hu⟩ := List.head?_eq_some_iff.1 (head?_octets (by decide) hc)
      exact hplus u hu
    · rintro rfl
      obtain ⟨u, hu⟩ := List.head?_eq_some_iff.1 (head?_octets (by decide) hc)
      exact hminus u hu

theorem scanFraction_of_head? {t : List Char} (h : ∀ c ∈ t.head?, c ≠ '.') :
    scanFraction t = ([], t) := by
  unfold scanFraction
  split
  next => exact absurd rfl (h _ rfl)
  next => rfl

theorem scanFraction_octets (t : List Char) :
    scanFraction (octets t) = ((scanFraction t).1, octets (scanFraction t).2) := by
  fun_cases scanFraction t with
  | case1 t =>
    rw [octets_cons_of_lt t (by decide)]
    exact scanDigits_octets t
  | case2 t hpoint =>
    apply scanFraction_of_head?
    rintro c hc rfl
    obtain ⟨u, hu⟩ := List.head?_eq_some_iff.1 (head?_octets (by decide) hc)
    exact hpoint u hu

theorem scanExponent_of_head? {t : List Char} (h : ∀ c ∈ t.head?, c ≠ 'e' ∧ c ≠ 'E') :
    scanExponent t = (0, t) := by
  cases t with
  | nil => rfl
  | cons c t =>
    have hc : (c == 'e' || c == 'E') = false := by simpa using h c rfl
    simp only [scanExponent, hc]
    rfl

theorem scanExponent_octets (t : List Char) :
    scanExponent (octets t) = ((scanExponent t).1, octets (scanExponent t).2) := by
  cases t with
  | nil => rfl
  | cons c t =>
    by_cases hc : c = 'e' ∨ c = 'E'
    · have hlt : c.toNat < 128 := by rcases hc with rfl | rfl <;> decide
      rw [octets_cons_of_lt t hlt]
      simp only [scanExponent, scanSign_octets, scanDigits_octets]
      split
      next => rfl
      next => rw [octets_cons_of_lt t hlt]
    · have hmarker : ∀ a ∈ (c :: t).head?, a ≠ 'e' ∧ a ≠ 'E' := by
        rintro a ⟨⟩
        exact not_or.1 hc
      have hoctets : ∀ a ∈ (octets (c :: t)).head?, a ≠ 'e' ∧ a ≠ 'E' := by
        intro a ha
        constructor
        · rintro rfl
          exact hc (.inl (Option.some.inj (head?_octets (by decide) ha)))
        · rintro rfl
          exact hc (.inr (Option.some.inj (head?_octets (by decide) ha)))
      rw [scanExponent_of_head? hmarker, scanExponent_of_head? hoctets]

/-- The numeral that is found in the bytes is that of the text. -/
theorem scan_octets (t : List Char) :
    scan (octets t) = (scan t).map fun p => (p.1, octets p.2) := by
  simp only [scan, scanSign_octets, scanDigits_octets, scanFraction_octets, scanExponent_octets]
  split <;> rfl

theorem scanSign_suffix (t : List Char) : (scanSign t).2 <:+ t := by
  fun_cases scanSign t with
  | case1 t => exact List.suffix_cons ..
  | case2 t => exact List.suffix_cons ..
  | case3 => exact List.suffix_refl _

theorem scanDigits_suffix (t : List Char) : (scanDigits t).2 <:+ t := List.dropWhile_suffix _

theorem scanFraction_suffix (t : List Char) : (scanFraction t).2 <:+ t := by
  fun_cases scanFraction t with
  | case1 t => exact (scanDigits_suffix t).trans (List.suffix_cons ..)
  | case2 => exact List.suffix_refl _

theorem scanExponent_suffix (t : List Char) : (scanExponent t).2 <:+ t := by
  cases t with
  | nil => exact List.suffix_refl _
  | cons c t =>
    have hdigits := (scanDigits_suffix (scanSign t).2).trans (scanSign_suffix t)
    simp only [scanExponent]
    split
    next => exact hdigits.trans (List.suffix_cons ..)
    next => exact List.suffix_refl _

/-- What a numeral leaves of a text is the end of the text. -/
theorem suffix_of_scan {t rest : List Char} {n : Numeral} (h : scan t = some (n, rest)) :
    rest <:+ t := by
  simp only [scan] at h
  split at h
  next => cases h
  next =>
    obtain ⟨-, rfl⟩ := Prod.mk.inj (Option.some.inj h)
    exact (scanExponent_suffix _).trans ((scanFraction_suffix _).trans
      ((scanDigits_suffix _).trans (scanSign_suffix t)))

/-- The numeral at the start of the bytes ends between two characters. -/
theorem isValid_of_scan_octets {t rest : List Char} {n : Numeral}
    (h : scan (octets t) = some (n, rest)) :
    String.Pos.Raw.IsValid (String.ofList t) ⟨(octets t).length - rest.length⟩ := by
  rw [scan_octets, Option.map_eq_some_iff] at h
  obtain ⟨⟨m, u⟩, hscan, hpair⟩ := h
  obtain ⟨-, rfl⟩ := Prod.mk.inj hpair
  obtain ⟨used, rfl⟩ := suffix_of_scan hscan
  rw [octets_append, List.length_append, Nat.add_sub_cancel]
  exact isValid_of_prefix (List.prefix_append ..)

end Numeral

end LinProg
