import LinProg.Blank
import LinProg.Proofs.PlainDecimal

/-!
# Blank characters in a text

Blank characters put into a text are taken out of it by `squeeze` (`squeeze_of_spaced`), and those
around a text by `trim` (`trim_append`), which takes out nothing else (`exists_eq_append_trim`).
-/

namespace LinProg.Blank

/-- The second text is the first with blank characters put in anywhere, also at its ends. -/
inductive Spaced : List Char → List Char → Prop
  | nil : Spaced [] []
  | blank {b : Char} {t u : List Char} (hb : isBlank b = true) (h : Spaced t u) : Spaced t (b :: u)
  | char (c : Char) {t u : List Char} (h : Spaced t u) : Spaced (c :: t) (c :: u)

def AllBlank (t : List Char) : Prop := ∀ c ∈ t, isBlank c = true

theorem squeeze_cons_of_blank {c : Char} (t : List Char) (h : isBlank c = true) :
    squeeze (c :: t) = squeeze t :=
  List.filter_cons_of_neg (by simp [h])

theorem squeeze_cons_of_not_blank {c : Char} (t : List Char) (h : isBlank c = false) :
    squeeze (c :: t) = c :: squeeze t :=
  List.filter_cons_of_pos (by simp [h])

theorem squeeze_of_spaced {t u : List Char} (h : Spaced t u)
    (ht : ∀ c ∈ t, isBlank c = false) : squeeze u = t := by
  induction h with
  | nil => rfl
  | blank hb _ ih => rw [squeeze_cons_of_blank _ hb, ih ht]
  | char c _ ih =>
    obtain ⟨hc, ht⟩ := List.forall_mem_cons.1 ht
    rw [squeeze_cons_of_not_blank _ hc, ih ht]

theorem spaced_squeeze (t : List Char) : Spaced (squeeze t) t := by
  induction t with
  | nil => exact .nil
  | cons c t ih =>
    cases hc : isBlank c with
    | true =>
      rw [squeeze_cons_of_blank t hc]
      exact .blank hc ih
    | false =>
      rw [squeeze_cons_of_not_blank t hc]
      exact .char c ih

theorem mem_of_spaced {t u : List Char} (h : Spaced t u) {c : Char} (hc : c ∈ u) :
    c ∈ t ∨ isBlank c = true := by
  induction h with
  | nil => cases hc
  | blank hb _ ih =>
    rcases List.mem_cons.1 hc with rfl | hc
    · exact .inr hb
    · exact ih hc
  | char d _ ih =>
    rcases List.mem_cons.1 hc with rfl | hc
    · exact .inl List.mem_cons_self
    · exact (ih hc).imp_left (List.mem_cons_of_mem d)

theorem squeeze_of_allBlank {t : List Char} (h : AllBlank t) : squeeze t = [] :=
  List.filter_eq_nil_iff.2 fun c hc => by simp [h c hc]

/-- The blank characters before a text, and the text behind them. -/
theorem exists_eq_append_trimStart (t : List Char) :
    ∃ a, AllBlank a ∧ t = a ++ trimStart t :=
  ⟨t.takeWhile isBlank, fun c hc => List.all_eq_true.1 List.all_takeWhile c hc,
    List.takeWhile_append_dropWhile.symm⟩

theorem not_isBlank_head?_trimStart (t : List Char) :
    ∀ c ∈ (trimStart t).head?, isBlank c = false := by
  intro c hc
  have hhead := List.head?_dropWhile_not isBlank t
  rwa [show (t.dropWhile isBlank).head? = some c from hc] at hhead

theorem trimStart_append {a t : List Char} (ha : AllBlank a)
    (ht : ∀ c ∈ t.head?, isBlank c = false) : trimStart (a ++ t) = t :=
  dropWhile_append_of_head? ha ht

theorem trimEnd_append {t b : List Char} (hb : AllBlank b)
    (ht : ∀ c ∈ t.getLast?, isBlank c = false) : trimEnd (t ++ b) = t := by
  have hb' : AllBlank b.reverse := fun c hc => hb c (List.mem_reverse.1 hc)
  rw [← List.head?_reverse] at ht
  rw [trimEnd, List.reverse_append, dropWhile_append_of_head? hb' ht, List.reverse_reverse]

theorem trim_append {a t b : List Char} (ha : AllBlank a) (hb : AllBlank b)
    (hf : ∀ c ∈ t.head?, isBlank c = false) (hl : ∀ c ∈ t.getLast?, isBlank c = false) :
    trim (a ++ (t ++ b)) = t := by
  cases t with
  | nil =>
    have hall : AllBlank (a ++ b) := List.forall_mem_append.2 ⟨ha, hb⟩
    have hstart := trimStart_append (t := []) hall nofun
    rw [List.append_nil] at hstart
    rw [trim, List.nil_append, hstart]
    rfl
  | cons c t =>
    rw [trim, trimStart_append ha (by rintro d ⟨⟩; exact hf c rfl), trimEnd_append hb hl]

/-- Only blank characters are trimmed. -/
theorem exists_eq_append_trim (t : List Char) :
    ∃ a b, AllBlank a ∧ AllBlank b ∧ t = a ++ (trim t ++ b) := by
  obtain ⟨a, ha, hstart⟩ := exists_eq_append_trimStart t
  obtain ⟨b, hb, hend⟩ := exists_eq_append_trimStart (trimStart t).reverse
  refine ⟨a, b.reverse, ha, fun c hc => hb c (List.mem_reverse.1 hc), ?_⟩
  have hreverse := congrArg List.reverse hend
  rw [List.reverse_reverse, List.reverse_append] at hreverse
  calc
    t = a ++ trimStart t := hstart
    _ = a ++ (trim t ++ b.reverse) := congrArg (a ++ ·) hreverse

end LinProg.Blank
