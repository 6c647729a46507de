import LinProg.ConstraintReader
import LinProg.Proofs.TextCharacters

/-!
# Cutting a text at its names

Every text without blanks falls in one way only into segments with a variable name behind each and
a tail without one, if the names are as long as they can be (`exists_maximal`, `Maximal.ext`).
The reader cuts at just these names, whatever stands between them, so that the coefficients of a
left-hand side are those of its segments: neither the names nor the tail have any influence
(`readCoefficients_factorization`).
-/

namespace LinProg.Constraint

/-- A variable name: letters, and perhaps digits behind them. -/
@[ext] structure Name where
  letters : List Char
  digits : List Char
  letters_ne_nil : letters ≠ []
  isAlpha_letters : ∀ c ∈ letters, c.isAlpha = true
  isDigit_digits : AllDigits digits

def Name.text (n : Name) : List Char := n.letters ++ n.digits

/-- Segments with a name behind each, and a tail. -/
inductive Factorization where
  | tail (t : List Char)
  | cons (segment : List Char) (name : Name) (rest : Factorization)

namespace Factorization

def text : Factorization → List Char
  | .tail t => t
  | .cons s n f => s ++ (n.text ++ f.text)

/-- The segments with the names behind them. -/
def parts : Factorization → List (List Char × Name)
  | .tail _ => []
  | .cons s n f => (s, n) :: f.parts

/-- The segments before the names, and the tail. -/
def segments : Factorization → List (List Char)
  | .tail t => [t]
  | .cons s _ f => s :: f.segments

/-- No letter is left outside the names, and no name can be made longer: behind a name stands no
digit, and a name follows another at once only behind a digit. -/
structure Maximal (f : Factorization) : Prop where
  not_isAlpha : ∀ s ∈ f.segments, ∀ c ∈ s, c.isAlpha = false
  not_isDigit : ∀ s ∈ f.segments.tail, ∀ c ∈ s.head?, c.isDigit = false
  digits_ne_nil : f.parts.IsChain fun p q => q.1 = [] → p.2.digits ≠ []

end Factorization

namespace Name

theorem exists_text_eq_cons (n : Name) : ∃ c t, n.text = c :: t ∧ c.isAlpha = true := by
  obtain ⟨c, t, hletters⟩ := List.exists_cons_of_ne_nil n.letters_ne_nil
  refine ⟨c, t ++ n.digits, ?_, n.isAlpha_letters c (by simp [hletters])⟩
  rw [text, hletters, List.cons_append]

/-- Nothing at the start of a text could make the name before it longer. -/
def EndsBefore (n : Name) (t : List Char) : Prop :=
  ∀ c ∈ t.head?, c.isDigit = false ∧ (n.digits = [] → c.isAlpha = false)

/-- The letters of a name end where they stop. -/
theorem not_isAlpha_head? {n : Name} {t : List Char} (h : n.EndsBefore t) :
    ∀ c ∈ (n.digits ++ t).head?, c.isAlpha = false := by
  intro c hc
  cases hdigits : n.digits with
  | nil =>
    rw [hdigits] at hc
    exact (h c hc).2 hdigits
  | cons d ds =>
    rw [hdigits] at hc
    obtain rfl : d = c := Option.some.inj hc
    exact not_isAlpha_of_isDigit (n.isDigit_digits d (by simp [hdigits]))

end Name

namespace Factorization

theorem exists_segments_eq_cons (f : Factorization) :
    ∃ s more, f.segments = s :: more ∧ ∀ c ∈ s.head?, c ∈ f.text.head? := by
  cases f with
  | tail t => exact ⟨t, [], rfl, fun c hc => hc⟩
  | cons s n f =>
    refine ⟨s, f.segments, rfl, ?_⟩
    intro c hc
    rw [text, List.head?_append, hc]
    rfl

theorem Maximal.cons {f : Factorization} {s : List Char} {n : Name} (hf : f.Maximal)
    (hs : ∀ c ∈ s, c.isAlpha = false) (hn : n.EndsBefore f.text) :
    (Factorization.cons s n f).Maximal := by
  constructor
  · exact List.forall_mem_cons.2 ⟨hs, hf.not_isAlpha⟩
  · obtain ⟨u, more, hsegments, hhead⟩ := f.exists_segments_eq_cons
    have hmore := hf.not_isDigit
    rw [hsegments] at hmore
    rw [segments, List.tail_cons, hsegments]
    exact List.forall_mem_cons.2 ⟨fun c hc => (hn c (hhead c hc)).1, hmore⟩
  · cases f with
    | tail t => exact List.isChain_singleton _
    | cons u m f =>
      refine List.isChain_cons_cons.2 ⟨?_, hf.digits_ne_nil⟩
      intro hu hdigits
      obtain ⟨c, t, htext, hc⟩ := m.exists_text_eq_cons
      have hnot := (hn c (by simp_all [text])).2 hdigits
      rw [hc] at hnot
      cases hnot

theorem Maximal.of_cons {f : Factorization} {s : List Char} {n : Name}
    (h : (Factorization.cons s n f).Maximal) : f.Maximal where
  not_isAlpha u hu := h.not_isAlpha u (List.mem_cons_of_mem _ hu)
  not_isDigit u hu := h.not_isDigit u (List.mem_of_mem_tail hu)
  digits_ne_nil := h.digits_ne_nil.of_cons

theorem Maximal.not_isAlpha_segment {f : Factorization} {s : List Char} {n : Name}
    (h : (Factorization.cons s n f).Maximal) : ∀ c ∈ s, c.isAlpha = false :=
  h.not_isAlpha s List.mem_cons_self

theorem Maximal.not_isAlpha_tail {t : List Char} (h : (Factorization.tail t).Maximal) :
    ∀ c ∈ t, c.isAlpha = false :=
  h.not_isAlpha t List.mem_cons_self

theorem Maximal.endsBefore {f : Factorization} {s : List Char} {n : Name}
    (h : (Factorization.cons s n f).Maximal) : n.EndsBefore f.text := by
  intro c hc
  cases f with
  | tail t =>
    have hdigit := h.not_isDigit t List.mem_cons_self c hc
    exact ⟨hdigit, fun _ => h.of_cons.not_isAlpha_tail c (List.mem_of_mem_head? hc)⟩
  | cons u m f =>
    have hgap := (List.isChain_cons_cons.1 h.digits_ne_nil).1
    cases u with
    | nil =>
      obtain ⟨a, t, htext, ha⟩ := m.exists_text_eq_cons
      obtain rfl : a = c := by simpa [text, htext] using hc
      refine ⟨?_, fun hdigits => absurd hdigits (hgap rfl)⟩
      rw [Bool.eq_false_iff]
      intro hdigit
      rw [not_isAlpha_of_isDigit hdigit] at ha
      cases ha
    | cons a u =>
      have hdigit := h.not_isDigit (a :: u) List.mem_cons_self a rfl
      obtain rfl : a = c := Option.some.inj hc
      exact ⟨hdigit, fun _ => h.of_cons.not_isAlpha_segment a List.mem_cons_self⟩

end Factorization

/-- Equal texts are equal in their first runs of a kind of characters and behind them. -/
theorem append_inj_of_head? {p : Char → Bool} {l l' r r' : List Char} (h : l ++ r = l' ++ r')
    (hl : ∀ a ∈ l, p a = true) (hl' : ∀ a ∈ l', p a = true) (hr : ∀ a ∈ r.head?, p a = false)
    (hr' : ∀ a ∈ r'.head?, p a = false) : l = l' ∧ r = r' := by
  constructor
  · rw [← takeWhile_append_of_head? hl hr, h, takeWhile_append_of_head? hl' hr']
  · rw [← dropWhile_append_of_head? hl hr, h, dropWhile_append_of_head? hl' hr']

namespace Name

theorem not_isAlpha_head?_text (n : Name) (t : List Char) :
    ∀ c ∈ (n.text ++ t).head?, (!c.isAlpha) = false := by
  intro c hc
  obtain ⟨a, u, htext, ha⟩ := n.exists_text_eq_cons
  rw [htext] at hc
  obtain rfl : a = c := Option.some.inj hc
  simpa using ha

theorem append_inj {n m : Name} {t u : List Char} (h : n.text ++ t = m.text ++ u)
    (hn : n.EndsBefore t) (hm : m.EndsBefore u) : n = m ∧ t = u := by
  simp only [text, List.append_assoc] at h
  obtain ⟨hletters, h⟩ := append_inj_of_head? h n.isAlpha_letters m.isAlpha_letters
    (not_isAlpha_head? hn) (not_isAlpha_head? hm)
  obtain ⟨hdigits, h⟩ := append_inj_of_head? h n.isDigit_digits m.isDigit_digits
    (fun c hc => (hn c hc).1) (fun c hc => (hm c hc).1)
  exact ⟨Name.ext hletters hdigits, h⟩

end Name

/-- The longest name at the start of a text, and what it leaves. -/
theorem Name.exists_longest {c : Char} (hc : c.isAlpha = true) (t : List Char) :
    ∃ n : Name, n.text ++ (t.dropWhile Char.isAlpha).dropWhile Char.isDigit = c :: t ∧
      n.EndsBefore ((t.dropWhile Char.isAlpha).dropWhile Char.isDigit) := by
  have hletters : ∀ a ∈ c :: t.takeWhile Char.isAlpha, a.isAlpha = true :=
    List.forall_mem_cons.2 ⟨hc, fun a ha => List.all_eq_true.1 List.all_takeWhile a ha⟩
  have hdigits : AllDigits ((t.dropWhile Char.isAlpha).takeWhile Char.isDigit) :=
    fun a ha => List.all_eq_true.1 List.all_takeWhile a ha
  refine ⟨⟨_, _, List.cons_ne_nil _ _, hletters, hdigits⟩, ?_, ?_⟩
  · simp [text]
  · intro a ha
    have hdigit := List.head?_dropWhile_not Char.isDigit (t.dropWhile Char.isAlpha)
    have halpha := List.head?_dropWhile_not Char.isAlpha t
    rw [Option.mem_def.1 ha] at hdigit
    refine ⟨hdigit, ?_⟩
    intro hempty
    change (t.dropWhile Char.isAlpha).takeWhile Char.isDigit = [] at hempty
    have hall := List.takeWhile_append_dropWhile (p := Char.isDigit) (l := t.dropWhile Char.isAlpha)
    rw [hempty, List.nil_append] at hall
    rw [hall] at ha
    rw [Option.mem_def.1 ha] at halpha
    exact halpha

theorem pieces_of_dropWhile {t u : List Char} {c : Char}
    (h : (t.dropWhile fun c => !c.isAlpha) = c :: u) :
    pieces t = (t.takeWhile fun c => !c.isAlpha) ::
      pieces ((u.dropWhile Char.isAlpha).dropWhile Char.isDigit) := by
  rw [pieces]
  split
  next hnil =>
    rw [h] at hnil
    cases hnil
  next hcons =>
    rw [h] at hcons
    obtain ⟨rfl, rfl⟩ := List.cons.inj hcons
    rfl

theorem pieces_of_not_isAlpha {t : List Char} (h : ∀ c ∈ t, c.isAlpha = false) : pieces t = [] := by
  have hdrop : (t.dropWhile fun c => !c.isAlpha) = [] := by simpa using h
  rw [pieces]
  split
  next => rfl
  next hcons =>
    rw [hdrop] at hcons
    cases hcons

/-- A variable name cuts off the segment before it. -/
theorem pieces_append {s t : List Char} {n : Name} (hs : ∀ c ∈ s, c.isAlpha = false)
    (hn : n.EndsBefore t) : pieces (s ++ (n.text ++ t)) = s :: pieces t := by
  have hsegment : ∀ c ∈ s, (!c.isAlpha) = true := by simpa using hs
  have hname := n.not_isAlpha_head?_text t
  obtain ⟨c, u, hletters⟩ := List.exists_cons_of_ne_nil n.letters_ne_nil
  have hu : ∀ a ∈ u, a.isAlpha = true := fun a ha => n.isAlpha_letters a (by simp [hletters, ha])
  have hdrop : ((s ++ (n.text ++ t)).dropWhile fun c => !c.isAlpha) =
      c :: (u ++ (n.digits ++ t)) := by
    rw [dropWhile_append_of_head? hsegment hname, Name.text, hletters, List.cons_append,
      List.cons_append, List.append_assoc]
  rw [pieces_of_dropWhile hdrop, takeWhile_append_of_head? hsegment hname,
    dropWhile_append_of_head? hu (Name.not_isAlpha_head? hn),
    dropWhile_append_of_head? n.isDigit_digits fun a ha => (hn a ha).1]

namespace Factorization

/-- The reader cuts a text into the segments of its factorization. -/
theorem pieces_text {f : Factorization} (hf : f.Maximal) :
    pieces f.text = f.parts.map Prod.fst := by
  induction f with
  | tail t => exact pieces_of_not_isAlpha hf.not_isAlpha_tail
  | cons s n f ih =>
    rw [text, pieces_append hf.not_isAlpha_segment hf.endsBefore, ih hf.of_cons]
    rfl

/-- A text without letters is no text with a name. -/
theorem text_cons_ne {f : Factorization} {s t : List Char} {n : Name}
    (h : ∀ c ∈ t, c.isAlpha = false) : (cons s n f).text ≠ t := by
  rintro rfl
  obtain ⟨c, u, hn, hc⟩ := n.exists_text_eq_cons
  have hmem : c ∈ (cons s n f).text := by simp [text, hn]
  rw [h c hmem] at hc
  cases hc

/-- A text has one factorization at most. -/
theorem Maximal.ext {f g : Factorization} (hf : f.Maximal) (hg : g.Maximal)
    (h : f.text = g.text) : f = g := by
  induction f generalizing g with
  | tail t =>
    cases g with
    | tail u => rw [show t = u from h]
    | cons s n g => exact absurd h.symm (text_cons_ne hf.not_isAlpha_tail)
  | cons s n f ih =>
    cases g with
    | tail u => exact absurd h (text_cons_ne hg.not_isAlpha_tail)
    | cons s' n' g =>
      have hs : ∀ c ∈ s, (!c.isAlpha) = true := by simpa using hf.not_isAlpha_segment
      have hs' : ∀ c ∈ s', (!c.isAlpha) = true := by simpa using hg.not_isAlpha_segment
      obtain ⟨rfl, hrest⟩ := append_inj_of_head? h hs hs' (n.not_isAlpha_head?_text _)
        (n'.not_isAlpha_head?_text _)
      obtain ⟨rfl, htext⟩ := Name.append_inj hrest hf.endsBefore hg.endsBefore
      rw [ih hf.of_cons hg.of_cons htext]

theorem maximal_tail {t : List Char} (h : ∀ c ∈ t, c.isAlpha = false) :
    (Factorization.tail t).Maximal where
  not_isAlpha := List.forall_mem_singleton.2 h
  not_isDigit := nofun
  digits_ne_nil := List.isChain_nil

/-- A text has a factorization: the one the reader goes through. -/
theorem exists_maximal (t : List Char) : ∃ f : Factorization, f.Maximal ∧ f.text = t := by
  induction t using pieces.induct with
  | case1 t hdrop =>
    have hletters : ∀ c ∈ t, c.isAlpha = false := by simpa using hdrop
    exact ⟨.tail t, maximal_tail hletters, rfl⟩
  | case2 t c rest hdrop hlt ih =>
    obtain ⟨f, hf, hrest⟩ := ih
    have hc : c.isAlpha = true := by
      have hhead := List.head?_dropWhile_not (fun c => !c.isAlpha) t
      simpa [hdrop] using hhead
    obtain ⟨n, htext, hn⟩ := Name.exists_longest hc rest
    rw [← hrest] at htext hn
    have hsegment : ∀ a ∈ t.takeWhile fun c => !c.isAlpha, a.isAlpha = false := by
      intro a ha
      simpa using List.all_eq_true.1 List.all_takeWhile a ha
    refine ⟨.cons _ n f, hf.cons hsegment hn, ?_⟩
    rw [text, htext, ← hdrop, List.takeWhile_append_dropWhile]

end Factorization

def beginsWithSign (t : List Char) : Bool := t.head? == some '+' || t.head? == some '-'

theorem pieces_plus (t : List Char) : pieces ('+' :: t) = (pieces t).modifyHead ('+' :: ·) := by
  have hplus : ∀ s : List Char, (∀ c ∈ s, c.isAlpha = false) → ∀ c ∈ '+' :: s, c.isAlpha = false :=
    fun s hs => List.forall_mem_cons.2 ⟨rfl, hs⟩
  obtain ⟨f, hf, rfl⟩ := Factorization.exists_maximal t
  cases f with
  | tail u =>
    have hu := hf.not_isAlpha_tail
    rw [Factorization.text, pieces_of_not_isAlpha hu, pieces_of_not_isAlpha (hplus u hu)]
    rfl
  | cons s n f =>
    have hs := hf.not_isAlpha_segment
    have hrest := hf.endsBefore
    rw [Factorization.text, ← List.cons_append, pieces_append hs hrest,
      pieces_append (hplus s hs) hrest]
    rfl

theorem pieces_withSign (t : List Char) :
    pieces (withSign t) =
      (pieces t).modifyHead fun s => if beginsWithSign t then s else '+' :: s := by
  cases t with
  | nil =>
    rw [withSign, pieces_of_not_isAlpha (List.forall_mem_nil _)]
    rfl
  | cons c t =>
    by_cases hc : c = '+' ∨ c = '-'
    · have hsign : beginsWithSign (c :: t) = true := by simpa [beginsWithSign] using hc
      simp only [withSign, if_pos hc, hsign, if_true]
      exact congrFun List.modifyHead_id.symm _
    · have hsign : beginsWithSign (c :: t) = false := by
        simpa [beginsWithSign] using hc
      rw [withSign, if_neg hc, hsign, pieces_plus]
      rfl

/-- The coefficients of a text are those of the segments between its names. -/
theorem readCoefficients_of_maximal {t : List Char} {f : Factorization} (hf : f.Maximal)
    (h : f.text = Blank.squeeze t) :
    readCoefficients t = ((f.parts.map Prod.fst).modifyHead fun s =>
      if beginsWithSign (Blank.squeeze t) then s else '+' :: s).map pieceCoefficient := by
  rw [readCoefficients, pieces_withSign, ← h, Factorization.pieces_text hf]

/-- Whether a text begins with a sign is decided before its first name. -/
theorem Factorization.beginsWithSign_text (s : List Char) (n : Name) (f : Factorization) :
    beginsWithSign (cons s n f).text = beginsWithSign s := by
  cases s with
  | cons c s => rfl
  | nil =>
    obtain ⟨c, t, hn, hc⟩ := n.exists_text_eq_cons
    have hplus : c ≠ '+' := by
      rintro rfl
      cases hc
    have hminus : c ≠ '-' := by
      rintro rfl
      cases hc
    simp [beginsWithSign, text, hn, hplus, hminus]

theorem readCoefficients_congr {t u : List Char} {f g : Factorization} (hf : f.Maximal)
    (hg : g.Maximal) (ht : f.text = Blank.squeeze t) (hu : g.text = Blank.squeeze u)
    (h : f.parts.map Prod.fst = g.parts.map Prod.fst) :
    readCoefficients t = readCoefficients u := by
  rw [readCoefficients_of_maximal hf ht, readCoefficients_of_maximal hg hu, h, ← ht, ← hu]
  cases f with
  | tail a =>
    rw [← h]
    rfl
  | cons s n f =>
    cases g with
    | tail b => cases h
    | cons s' n' g =>
      obtain rfl : s = s' := (List.cons.inj h).1
      rw [Factorization.beginsWithSign_text, Factorization.beginsWithSign_text]

/-- Without its blanks a text has one factorization, and its coefficients are those of the segments
before the names: the tail and the names themselves have no influence. -/
theorem readCoefficients_factorization (t : List Char) :
    (∃! f : Factorization, f.Maximal ∧ f.text = Blank.squeeze t) ∧
    (∀ f : Factorization, f.Maximal → f.text = Blank.squeeze t →
      (readCoefficients t).length = f.parts.length ∧
      ∀ k s n, f.parts[k]? = some (s, n) →
        (readCoefficients t)[k]? = some (pieceCoefficient
          (if k = 0 ∧ beginsWithSign (Blank.squeeze t) = false then '+' :: s else s))) ∧
    ∀ (u : List Char) (f g : Factorization), f.Maximal → g.Maximal →
      f.text = Blank.squeeze t → g.text = Blank.squeeze u →
      f.parts.map Prod.fst = g.parts.map Prod.fst → readCoefficients t = readCoefficients u := by
  refine ⟨?_, ?_, fun u f g hf hg => readCoefficients_congr hf hg⟩
  · obtain ⟨f, hf, htext⟩ := Factorization.exists_maximal (Blank.squeeze t)
    exact ⟨f, ⟨hf, htext⟩, fun g hg => hg.1.ext hf (hg.2.trans htext.symm)⟩
  · intro f hf htext
    rw [readCoefficients_of_maximal hf htext]
    refine ⟨by simp, ?_⟩
    intro k s n hk
    have hsegment : (f.parts.map Prod.fst)[k]? = some s := by simp [hk]
    rw [List.getElem?_map, List.getElem?_modifyHead, hsegment]
    cases k with
    | zero => cases beginsWithSign (Blank.squeeze t) <;> rfl
    | succ k => simp

/-- Two texts with the same segments between other names. -/
theorem readCoefficients_renamed :
    (readCoefficients "2x1 - 3y".toList).length = 2 ∧
      readCoefficients "2x1 - 3y".toList = readCoefficients "2e5 - 3zz + 7".toList := by
  let x1 : Name := ⟨['x'], ['1'], nofun, List.all_eq_true.1 rfl, List.all_eq_true.1 rfl⟩
  let y : Name := ⟨['y'], [], nofun, List.all_eq_true.1 rfl, List.forall_mem_nil _⟩
  let e5 : Name := ⟨['e'], ['5'], nofun, List.all_eq_true.1 rfl, List.all_eq_true.1 rfl⟩
  let zz : Name := ⟨['z', 'z'], [], nofun, List.all_eq_true.1 rfl, List.forall_mem_nil _⟩
  have hfirst : ∀ c ∈ ['2'], c.isAlpha = false := List.forall_mem_singleton.2 rfl
  have hsecond : ∀ c ∈ ['-', '3'], c.isAlpha = false := by simp
  have hrest : ∀ c ∈ ['+', '7'], c.isAlpha = false := by simp
  have hy : (Factorization.cons ['-', '3'] y (.tail [])).Maximal :=
    (Factorization.maximal_tail (List.forall_mem_nil _)).cons hsecond nofun
  have hzz : (Factorization.cons ['-', '3'] zz (.tail ['+', '7'])).Maximal := by
    refine (Factorization.maximal_tail hrest).cons hsecond ?_
    rintro c ⟨⟩
    exact ⟨rfl, fun _ => rfl⟩
  have hx1 : (Factorization.cons ['2'] x1 (.cons ['-', '3'] y (.tail []))).Maximal := by
    refine hy.cons hfirst ?_
    rintro c ⟨⟩
    exact ⟨rfl, fun _ => rfl⟩
  have he5 : (Factorization.cons ['2'] e5 (.cons ['-', '3'] zz (.tail ['+', '7']))).Maximal := by
    refine hzz.cons hfirst ?_
    rintro c ⟨⟩
    exact ⟨rfl, fun _ => rfl⟩
  have hread := readCoefficients_factorization "2x1 - 3y".toList
  exact ⟨(hread.2.1 _ hx1 rfl).1, hread.2.2 _ _ _ hx1 he5 rfl rfl rfl⟩

end LinProg.Constraint
