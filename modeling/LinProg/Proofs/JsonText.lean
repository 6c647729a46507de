import LinProg.JsonReader
import LinProg.JsonWriter
import LinProg.Proofs.ReaderSteps

/-!
# Texts and integers of JSON

The texts and the integers of 64 bits that are written as JSON are read as what they were. A text
is read in parts, each as long as nothing in it is escaped, or one escaped character.
-/

namespace LinProg

namespace BasedDigits

theorem digitValue_of_isDigit {c : Char} (h : c.isDigit = true) :
    digitValue c = c.toNat - '0'.toNat :=
  if_pos h

theorem value_toDigits (n : Nat) : value 10 (Nat.toDigits 10 n) = n := by
  have hfold (ds : List Char) (hd : AllDigits ds) (m : Nat) :
      ds.foldl (fun n c => 10 * n + digitValue c) m = Nat.ofDigitChars 10 ds m := by
    induction ds generalizing m with
    | nil => rfl
    | cons d ds ih =>
      obtain ⟨hd, hds⟩ := List.forall_mem_cons.1 hd
      rw [List.foldl_cons, digitValue_of_isDigit hd, ih hds, Nat.ofDigitChars_cons]
  rw [value, hfold _ (allDigits_toDigits n), Nat.ofDigitChars_ten_toDigits]

end BasedDigits

namespace Json

open Reader

variable {c : Char} {t rest : List Char}

theorem escape_of_isUnescaped (h : isUnescaped c = true) : escape c = [c] := by
  simp only [isUnescaped, Bool.and_eq_true, bne_iff_ne, decide_eq_true_eq] at h
  obtain ⟨⟨hquote, hslash⟩, hn⟩ := h
  unfold escape
  split
  next => exact absurd rfl hquote
  next => exact absurd rfl hslash
  iterate 5 next => exact absurd hn (by decide)
  next => exact if_neg (by omega)

theorem unit16_eq {ds : List Char} (hn : ds.length = 4)
    (hd : ds.all BasedDigits.isHexDigit = true) :
    unit16 (ds ++ rest) = some (BasedDigits.value 16 ds, rest) := by
  have hcount : count 4 BasedDigits.isHexDigit (ds ++ rest) = some (ds, rest) :=
    hn ▸ count_append (List.all_eq_true.1 hd)
  exact bind_of_some hcount

/-- The number of a control character, as four digits. -/
theorem control_digits : ∀ n < 32,
    ((Nat.toDigits 16 (0x10000 + n)).drop 1).length = 4 ∧
      ((Nat.toDigits 16 (0x10000 + n)).drop 1).all BasedDigits.isHexDigit = true ∧
        BasedDigits.value 16 ((Nat.toDigits 16 (0x10000 + n)).drop 1) = n := by
  decide

theorem numbered_control (h : c.toNat < 32) :
    numbered ((Nat.toDigits 16 (0x10000 + c.toNat)).drop 1 ++ t) = some (c, t) := by
  obtain ⟨hlength, hdigits, hvalue⟩ := control_digits c.toNat h
  rw [numbered, bind_of_some (unit16_eq hlength hdigits), hvalue, if_neg (by omega),
    if_pos (.inl (by omega)), Char.ofNat_toNat]
  rfl

theorem lt_of_isUnescaped (h : isUnescaped c = false) (hquote : c ≠ '"') (hslash : c ≠ '\\') :
    c.toNat < 32 := by
  simpa [isUnescaped, hquote, hslash] using h

theorem escaped_escape (h : isUnescaped c = false) : escaped (escape c ++ t) = some (c, t) := by
  unfold escape
  split
  iterate 7 next => rfl
  next hquote hslash _ _ _ _ _ =>
    have hcontrol : c.toNat < 32 := lt_of_isUnescaped h hquote hslash
    rw [if_pos hcontrol]
    exact numbered_control hcontrol

theorem head?_escape (h : isUnescaped c = false) : (escape c).head? = some '\\' := by
  unfold escape
  split
  iterate 7 next => rfl
  next hquote hslash _ _ _ _ _ => rw [if_pos (lt_of_isUnescaped h hquote hslash)]; rfl

theorem ne_nil_of_escape (h : isUnescaped c = false) : escape c ≠ [] := by
  rintro hnil
  cases hnil ▸ head?_escape h

/-- A part of a text: characters that are not escaped, or one that is. -/
def part : Reader (List Char) := run isUnescaped <|> List.singleton <$> escaped

theorem part_escape (h : isUnescaped c = false) : part (escape c ++ t) = some ([c], t) := by
  have hrun : run isUnescaped (escape c ++ t) = none := by
    refine run_of_neg ?_
    rw [List.head?_append, head?_escape h]
    rintro d ⟨⟩
    rfl
  rw [part, orElse_of_none hrun]
  exact map_of_some (escaped_escape h)

theorem part_unescaped {cs : List Char} (hne : cs ≠ []) (hcs : ∀ c ∈ cs, isUnescaped c = true)
    (ht : ∀ c ∈ t.head?, isUnescaped c = false) : part (cs ++ t) = some (cs, t) :=
  orElse_of_some (run_append hne hcs ht)

theorem flatMap_escape {cs : List Char} (h : ∀ c ∈ cs, isUnescaped c = true) :
    cs.flatMap escape = cs := by
  induction cs with
  | nil => rfl
  | cons c cs ih =>
    obtain ⟨hc, hcs⟩ := List.forall_mem_cons.1 h
    rw [List.flatMap_cons, escape_of_isUnescaped hc, ih hcs]
    rfl

/-- The text of characters of which the first is escaped, and its end, begin with a mark. -/
theorem head?_flatMap_escape {cs : List Char} (h : ∀ c ∈ cs.head?, isUnescaped c = false) :
    ∀ c ∈ (cs.flatMap escape ++ '"' :: rest).head?, isUnescaped c = false := by
  cases cs with
  | nil =>
    rintro c ⟨⟩
    rfl
  | cons c cs =>
    rw [List.flatMap_cons, List.append_assoc, List.head?_append, head?_escape (h c rfl)]
    rintro d ⟨⟩
    rfl

/-- The parts in which the text of some characters is read. -/
theorem exists_parts (cs rest : List Char) :
    ∃ parts, parts.flatten = cs ∧
      Steps part (cs.flatMap escape ++ '"' :: rest) parts ('"' :: rest) := by
  match cs with
  | [] => exact ⟨[], rfl, .stop rfl⟩
  | c :: cs =>
    cases hc : isUnescaped c with
    | false =>
      obtain ⟨parts, hparts, hsteps⟩ := exists_parts cs rest
      refine ⟨[c] :: parts, by rw [List.flatten_cons, hparts]; rfl, ?_⟩
      rw [List.flatMap_cons, List.append_assoc]
      exact .more (part_escape hc) (ne_nil_of_escape hc) hsteps
    | true =>
      -- One part takes all characters up to the next escaped one.
      let l := (c :: cs).takeWhile isUnescaped
      let r := (c :: cs).dropWhile isUnescaped
      have hlr : l ++ r = c :: cs := List.takeWhile_append_dropWhile
      have hne : l ≠ [] := by simp [l, hc]
      have hshorter : r.length < (c :: cs).length := by
        have hpos : 0 < l.length := List.length_pos_iff.2 hne
        rw [← hlr, List.length_append]
        omega
      obtain ⟨parts, hparts, hsteps⟩ := exists_parts r rest
      have hl : ∀ c ∈ l, isUnescaped c = true := List.all_eq_true.1 List.all_takeWhile
      have hr : ∀ c ∈ r.head?, isUnescaped c = false := by
        intro d hd
        have hhead := List.head?_dropWhile_not isUnescaped (c :: cs)
        rwa [show ((c :: cs).dropWhile isUnescaped).head? = some d from hd] at hhead
      refine ⟨l :: parts, by rw [List.flatten_cons, hparts, hlr], ?_⟩
      rw [← hlr, List.flatMap_append, flatMap_escape hl, List.append_assoc]
      exact .more (part_unescaped hne hl (head?_flatMap_escape hr)) hne hsteps
termination_by cs.length
decreasing_by
  · exact Nat.lt_succ_self cs.length
  · exact hshorter

theorem text_writeText (s : String) : text (writeText s ++ rest) = some (s, rest) := by
  obtain ⟨parts, hparts, hsteps⟩ := exists_parts s.toList rest
  have htext : writeText s ++ rest = '"' :: (s.toList.flatMap escape ++ '"' :: rest) := by
    simp [writeText]
  rw [htext, text, bind_of_some (exactly_self _ _)]
  change (many part >>= _) _ = _
  rw [bind_of_some hsteps.many_eq, bind_of_some (exactly_self _ _), hparts, String.ofList_toList]
  rfl

/-- Nothing with which a number would go on. -/
def EndsNumber (t : List Char) : Prop :=
  ∀ c ∈ t.head?, c.isDigit = false ∧ c ≠ '.' ∧ c ≠ 'e' ∧ c ≠ 'E'

/-- A positive number is written without a zero before it. -/
theorem head?_toDigits {n : Nat} (hn : 0 < n) : ∀ c ∈ (Nat.toDigits 10 n).head?, c ≠ '0' := by
  by_cases hlt : n < 10
  · have hdigit : ∀ n < 10, 0 < n → n.digitChar ≠ '0' := by decide
    rw [Nat.toDigits_of_lt_base hlt]
    rintro c ⟨⟩
    exact hdigit n hlt hn
  · obtain ⟨d, ds, hds⟩ := List.exists_cons_of_ne_nil (Nat.toDigits_ne_nil (n := n / 10) (b := 10))
    have hhead := head?_toDigits (n := n / 10) (by omega)
    rw [hds] at hhead
    rw [Nat.toDigits_of_base_le (by omega) (by omega), hds]
    exact hhead
termination_by n

theorem wholeDigits_toDigits (n : Nat) (h : EndsNumber rest) :
    wholeDigits (Nat.toDigits 10 n ++ rest) = some (Nat.toDigits 10 n, rest) := by
  by_cases hn : n = 0
  · rw [hn]
    exact orElse_of_some (bind_of_some (exactly_self '0' rest))
  · obtain ⟨d, ds, hds⟩ := List.exists_cons_of_ne_nil (Nat.toDigits_ne_nil (n := n) (b := 10))
    have hd : d ≠ '0' := head?_toDigits (Nat.pos_of_ne_zero hn) d (by rw [hds]; rfl)
    have hzero : exactly '0' (Nat.toDigits 10 n ++ rest) = none :=
      exactly_of_ne (by rw [hds]; rintro c ⟨⟩; exact hd)
    rw [wholeDigits, orElse_of_none (bind_of_none hzero)]
    exact run_append Nat.toDigits_ne_nil (allDigits_toDigits n) fun c hc => (h c hc).1

/-- A sign and digits are read as an integer where they are one of 64 bits. -/
theorem number_toDigits (sign : List Char) (negative : Bool) {n : Nat} {v : Int}
    (hsign : attempt (char (· == '-')) (sign ++ (Nat.toDigits 10 n ++ rest)) =
      some (if negative then some '-' else none, Nat.toDigits 10 n ++ rest))
    (hv : integer? negative (Nat.toDigits 10 n) = some v) (h : EndsNumber rest) :
    number (sign ++ (Nat.toDigits 10 n ++ rest)) = some (.int v, rest) := by
  have hfraction : attempt fraction rest = some (none, rest) :=
    attempt_of_none (bind_of_none (exactly_of_ne fun c hc => (h c hc).2.1))
  have hexponent : attempt exponent rest = some (none, rest) := by
    refine attempt_of_none (bind_of_none (char_of_neg fun c hc => ?_))
    simpa using (h c hc).2.2
  have hminus : (if negative then some '-' else none).isSome = negative := by
    cases negative <;> rfl
  rw [number, bind_of_some hsign, bind_of_some (wholeDigits_toDigits n h),
    bind_of_some hfraction, bind_of_some hexponent]
  simp only [hminus, hv, Option.getD_none, List.append_nil]
  rfl

/-- An integer of 64 bits, with a sign or without. -/
def IsInt64 (v : Int) : Prop := -2 ^ 63 ≤ v ∧ v < 2 ^ 64

theorem toList_toString_ofNat (n : Nat) :
    (toString (Int.ofNat n)).toList = Nat.toDigits 10 n :=
  String.toList_ofList

theorem toList_toString_negSucc (n : Nat) :
    (toString (Int.negSucc n)).toList = '-' :: Nat.toDigits 10 (n + 1) := by
  simp [toString, Int.repr]

theorem exists_head?_toDigits (n : Nat) :
    ∃ d ∈ (Nat.toDigits 10 n).head?, d.isDigit = true := by
  obtain ⟨d, ds, hds⟩ := List.exists_cons_of_ne_nil (Nat.toDigits_ne_nil (n := n) (b := 10))
  exact ⟨d, by rw [hds]; rfl, allDigits_toDigits n d (by simp [hds])⟩

theorem exists_head?_toString (v : Int) :
    ∃ c ∈ (toString v).toList.head?, c.isDigit = true ∨ c = '-' := by
  cases v with
  | ofNat n =>
    obtain ⟨d, hd, hdigit⟩ := exists_head?_toDigits n
    exact ⟨d, toList_toString_ofNat n ▸ hd, .inl hdigit⟩
  | negSucc n => exact ⟨'-', by rw [toList_toString_negSucc]; rfl, .inr rfl⟩

theorem number_toString {v : Int} (hv : IsInt64 v) (h : EndsNumber rest) :
    number ((toString v).toList ++ rest) = some (.int v, rest) := by
  obtain ⟨hlow, hhigh⟩ := hv
  cases v with
  | ofNat n =>
    rw [Int.ofNat_eq_natCast] at hhigh
    obtain ⟨d, hd, hdigit⟩ := exists_head?_toDigits n
    have hsign : attempt (char (· == '-')) (Nat.toDigits 10 n ++ rest) =
        some (none, Nat.toDigits 10 n ++ rest) := by
      refine attempt_of_none (char_of_neg ?_)
      rw [List.head?_append, hd]
      rintro c ⟨⟩
      exact beq_eq_false_iff_ne.2 (Numeral.ne_sign_of_isDigit hdigit).2
    have hv : integer? false (Nat.toDigits 10 n) = some (.ofNat n) := by
      rw [integer?, BasedDigits.value_toDigits, if_neg Bool.false_ne_true, if_pos (by omega)]
      rfl
    rw [toList_toString_ofNat]
    exact number_toDigits [] false hsign hv h
  | negSucc n =>
    have hsign : attempt (char (· == '-')) ('-' :: (Nat.toDigits 10 (n + 1) ++ rest)) =
        some (some '-', Nat.toDigits 10 (n + 1) ++ rest) :=
      attempt_of_some (char_of_pos rfl)
    have hv : integer? true (Nat.toDigits 10 (n + 1)) = some (.negSucc n) := by
      rw [integer?, BasedDigits.value_toDigits, if_pos rfl, if_pos (by omega)]
      rfl
    rw [toList_toString_negSucc]
    exact number_toDigits ['-'] true hsign hv h

end Json

end LinProg
