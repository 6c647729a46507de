import LinProg.Proofs.JsonText

/-!
# Data written and read again

Data without floats and moments, whose integers have 64 bits and whose tables name no member twice,
are read from the text that is written for them, whatever stands behind it, as long as that is not
the continuation of a number. The induction is on the data; a level of lists and tables takes one
level of the reader.
-/

namespace LinProg.Json

open Reader

variable {rest : List Char}

/-- Data that JSON can hold, with at most `n` levels of lists and tables. -/
inductive Storable : Nat → Data → Prop
  | null {n : Nat} : Storable n .null
  | bool {n : Nat} (b : Bool) : Storable n (.bool b)
  | int {n : Nat} {v : Int} (h : IsInt64 v) : Storable n (.int v)
  | text {n : Nat} (s : String) : Storable n (.text s)
  | list {n : Nat} {items : List Data} (h : ∀ d ∈ items, Storable n d) :
      Storable (n + 1) (.list items)
  | table {n : Nat} {members : List (String × Data)} (h : ∀ m ∈ members, Storable n m.2)
      (names : (members.map Prod.fst).Nodup) : Storable (n + 1) (.table members)

/-- The texts of some values, with a comma between each two. -/
def joined {α : Type} (w : α → List Char) : List α → List Char
  | [] => []
  | a :: as => w a ++ as.flatMap fun b => ',' :: w b

def writeMember (m : String × Data) : List Char := writeText m.1 ++ ':' :: write m.2

theorem writeItems_eq (ds : List Data) : writeItems ds = joined write ds := by
  cases ds with
  | nil => rfl
  | cons d ds =>
    induction ds generalizing d with
    | nil => exact (List.append_nil _).symm
    | cons e ds ih =>
      rw [writeItems, ih e]
      · rfl
      · nofun

theorem writeMembers_eq (ms : List (String × Data)) :
    writeMembers ms = joined writeMember ms := by
  cases ms with
  | nil => rfl
  | cons m ms =>
    induction ms generalizing m with
    | nil => exact (List.append_nil _).symm
    | cons k ms ih =>
      rw [writeMembers, ih k]
      · simp [joined, writeMember]
      · nofun

/-- A text that a reader takes for a value; it has a first character, which is not blank. -/
structure ReadsAs {α : Type} (r : Reader α) (t : List Char) (a : α) : Prop where
  start : ∃ c ∈ t.head?, isSpace c = false
  reads : ∀ rest, EndsNumber rest → r (t ++ rest) = some (a, rest)

theorem endsNumber_cons {c : Char} (h : c.isDigit = false ∧ c ≠ '.' ∧ c ≠ 'e' ∧ c ≠ 'E') :
    EndsNumber (c :: rest) := by
  rintro d ⟨⟩
  exact h

theorem spaces_of_head? {t : List Char} (h : ∀ c ∈ t.head?, isSpace c = false) :
    spaces t = some ((), t) :=
  bind_of_some (span_append (l := []) nofun h)

theorem mark_cons {c : Char} {t : List Char} (hc : isSpace c = false)
    (ht : ∀ c ∈ t.head?, isSpace c = false) : mark c (c :: t) = some ((), t) := by
  have hspaces : spaces (c :: t) = some ((), c :: t) :=
    spaces_of_head? (by rintro d ⟨⟩; exact hc)
  exact seqLeft_of_some ((seqRight_of_some hspaces).trans (exactly_self c t)) (spaces_of_head? ht)

theorem mark_of_ne {c : Char} {t : List Char} (hspace : ∀ d ∈ t.head?, isSpace d = false)
    (hne : ∀ d ∈ t.head?, d ≠ c) : mark c t = none :=
  seqLeft_of_none ((seqRight_of_some (spaces_of_head? hspace)).trans (exactly_of_ne hne))

namespace ReadsAs

variable {α : Type} {r : Reader α} {w : α → List Char} {t : List Char} {a : α} {xs : List α}
  {close : Char}

theorem not_isSpace (h : ReadsAs r t a) : ∀ c ∈ (t ++ rest).head?, isSpace c = false := by
  obtain ⟨c, hc, hspace⟩ := h.start
  rw [List.head?_append, hc]
  rintro d ⟨⟩
  exact hspace

theorem not_isSpace_joined (h : ∀ a ∈ xs, ReadsAs r (w a) a) (hclose : isSpace close = false) :
    ∀ c ∈ (joined w xs ++ close :: rest).head?, isSpace c = false := by
  cases xs with
  | nil =>
    rintro c ⟨⟩
    exact hclose
  | cons a as =>
    rw [joined, List.append_assoc]
    exact (h a List.mem_cons_self).not_isSpace

theorem endsNumber_flatMap (hclose : close = ']' ∨ close = '\x7d') :
    EndsNumber ((xs.flatMap fun b => ',' :: w b) ++ close :: rest) := by
  cases xs with
  | nil => rcases hclose with rfl | rfl <;> exact endsNumber_cons (by decide)
  | cons a as => exact endsNumber_cons (by decide)

/-- Each further value is read behind its comma. -/
theorem steps_marked (h : ∀ a ∈ xs, ReadsAs r (w a) a) (hclose : close = ']' ∨ close = '\x7d') :
    Steps (mark ',' *> r) ((xs.flatMap fun b => ',' :: w b) ++ close :: rest) xs
      (close :: rest) := by
  induction xs with
  | nil =>
    refine .stop (seqRight_of_none (mark_of_ne ?_ ?_)) <;>
    · rintro c ⟨⟩
      rcases hclose with rfl | rfl <;> decide
  | cons a as ih =>
    obtain ⟨ha, has⟩ := List.forall_mem_cons.1 h
    rw [List.flatMap_cons, List.append_assoc]
    refine .more ?_ (List.cons_ne_nil ',' (w a)) (ih has)
    rw [List.cons_append, seqRight_of_some (mark_cons rfl ha.not_isSpace)]
    exact ha.reads _ (endsNumber_flatMap hclose)

/-- Between its marks, a list of values is read whole. -/
theorem attempt_separated (rest : List Char) (h : ∀ a ∈ xs, ReadsAs r (w a) a)
    (hclose : close = ']' ∨ close = '\x7d') (hend : r (close :: rest) = none) :
    ∃ as, attempt (separated r (mark ',')) (joined w xs ++ close :: rest) =
      some (as, close :: rest) ∧ as.getD [] = xs := by
  cases xs with
  | nil => exact ⟨none, attempt_of_none (bind_of_none hend), rfl⟩
  | cons a as =>
    obtain ⟨ha, has⟩ := List.forall_mem_cons.1 h
    refine ⟨some (a :: as), attempt_of_some ?_, rfl⟩
    rw [joined, List.append_assoc, separated, bind_of_some (ha.reads _ (endsNumber_flatMap hclose)),
      bind_of_some (steps_marked has hclose).many_eq]
    rfl

end ReadsAs

theorem value_bracket (n : Nat) : value n (']' :: rest) = none := by
  cases n with
  | zero => rfl
  | succ n => rfl

theorem items_joined {n : Nat} {ds : List Data} (h : ∀ d ∈ ds, ReadsAs (value n) (write d) d) :
    items (value n) ('[' :: (joined write ds ++ ']' :: rest)) = some (ds, rest) := by
  obtain ⟨as, has, rfl⟩ := ReadsAs.attempt_separated rest h (.inl rfl) (value_bracket n)
  rw [items, bind_of_some (exactly_self _ _),
    bind_of_some (spaces_of_head? (ReadsAs.not_isSpace_joined h rfl)), bind_of_some has,
    bind_of_some (spaces_of_head? (by rintro c ⟨⟩; rfl)), bind_of_some (exactly_self _ _)]
  rfl

theorem ReadsAs.member {n : Nat} {m : String × Data} (h : ReadsAs (value n) (write m.2) m.2) :
    ReadsAs (member (value n)) (writeMember m) m where
  start := ⟨'"', rfl, rfl⟩
  reads rest hrest := by
    have htext : writeMember m ++ rest = writeText m.1 ++ ':' :: (write m.2 ++ rest) := by
      simp [writeMember]
    rw [htext, Json.member, bind_of_some (text_writeText m.1),
      bind_of_some (mark_cons rfl h.not_isSpace), bind_of_some (h.reads rest hrest)]
    rfl

/-- Members of different names are kept as they are. -/
theorem foldl_withMember (seen : List (String × Data)) {ms : List (String × Data)}
    (h : ((seen ++ ms).map Prod.fst).Nodup) : ms.foldl withMember seen = seen ++ ms := by
  induction ms generalizing seen with
  | nil => exact (List.append_nil seen).symm
  | cons m ms ih =>
    have hmove : seen ++ m :: ms = seen ++ [m] ++ ms := by simp
    have hnew : seen.lookup m.1 = none := by
      rw [List.lookup_eq_none_iff]
      intro k hk
      rw [bne_iff_ne]
      intro heq
      rw [List.map_append, List.nodup_append] at h
      exact h.2.2 k.1 (List.mem_map_of_mem hk) m.1 (by simp) heq.symm
    have hstep : withMember seen m = seen ++ [m] := by
      rw [withMember, hnew]
      rfl
    rw [hmove] at h ⊢
    rw [List.foldl_cons, hstep]
    exact ih _ h

theorem members_joined {n : Nat} {ms : List (String × Data)}
    (h : ∀ m ∈ ms, ReadsAs (value n) (write m.2) m.2) (hnames : (ms.map Prod.fst).Nodup) :
    members (value n) ('\x7b' :: (joined writeMember ms ++ '\x7d' :: rest)) =
      some (ms, rest) := by
  have hms : ∀ m ∈ ms, ReadsAs (member (value n)) (writeMember m) m := fun m hm => (h m hm).member
  have hend : member (value n) ('\x7d' :: rest) = none := rfl
  obtain ⟨as, has, hget⟩ := ReadsAs.attempt_separated rest hms (.inr rfl) hend
  rw [members, bind_of_some (exactly_self _ _),
    bind_of_some (spaces_of_head? (ReadsAs.not_isSpace_joined hms rfl)), bind_of_some has,
    bind_of_some (spaces_of_head? (by rintro c ⟨⟩; rfl)), bind_of_some (exactly_self _ _), hget,
    foldl_withMember [] hnames]
  rfl

theorem value_of_scalar {n : Nat} {t : List Char} (h : ∀ c ∈ t.head?, c ≠ '[' ∧ c ≠ '\x7b') :
    value n t = scalar t := by
  cases n with
  | zero => rfl
  | succ n =>
    have hitems : items (value n) t = none := bind_of_none (exactly_of_ne fun c hc => (h c hc).1)
    have hmembers : members (value n) t = none :=
      bind_of_none (exactly_of_ne fun c hc => (h c hc).2)
    rw [value, orElse_of_none (bind_of_none hitems), orElse_of_none (bind_of_none hmembers)]

theorem ne_of_startsNumber {c d : Char} (h : c.isDigit = true ∨ c = '-')
    (hdigit : d.isDigit = false) (hminus : d ≠ '-') : c ≠ d := by
  rintro rfl
  rcases h with h | h
  · rw [hdigit] at h
    cases h
  · exact hminus h

theorem scalar_of_number {t : List Char} (h : ∀ c ∈ t.head?, c.isDigit = true ∨ c = '-') :
    scalar t = number t := by
  have hne (d : Char) (hdigit : d.isDigit = false) (hminus : d ≠ '-') : ∀ c ∈ t.head?, c ≠ d :=
    fun c hc => ne_of_startsNumber (h c hc) hdigit hminus
  have hnull : word "null".toList t = none := word_of_ne (hne 'n' rfl (by decide))
  have htrue : word "true".toList t = none := word_of_ne (hne 't' rfl (by decide))
  have hfalse : word "false".toList t = none := word_of_ne (hne 'f' rfl (by decide))
  have htext : text t = none := bind_of_none (exactly_of_ne (hne '"' rfl (by decide)))
  rw [scalar, orElse_of_none (bind_of_none hnull), orElse_of_none (bind_of_none htrue),
    orElse_of_none (bind_of_none hfalse), orElse_of_none (bind_of_none htext)]

theorem readsAs_int {n : Nat} {v : Int} (h : IsInt64 v) :
    ReadsAs (value n) (write (.int v)) (.int v) := by
  obtain ⟨c, hc, hstart⟩ := exists_head?_toString v
  have hnumber {p : Char → Prop} (hp : p c) (rest : List Char) :
      ∀ d ∈ (write (.int v) ++ rest).head?, p d := by
    rw [List.head?_append, write, hc]
    rintro d ⟨⟩
    exact hp
  have hne (d : Char) (hdigit : d.isDigit = false) (hminus : d ≠ '-') : c ≠ d :=
    ne_of_startsNumber hstart hdigit hminus
  have hspace : isSpace c = false := by
    simp [isSpace, hne ' ' rfl (by decide), hne '\t' rfl (by decide), hne '\n' rfl (by decide),
      hne '\r' rfl (by decide)]
  have hmarks : c ≠ '[' ∧ c ≠ '\x7b' := ⟨hne '[' rfl (by decide), hne '\x7b' rfl (by decide)⟩
  refine ⟨⟨c, hc, hspace⟩, fun rest hrest => ?_⟩
  rw [value_of_scalar (hnumber hmarks rest), scalar_of_number (hnumber hstart rest)]
  exact number_toString h hrest

theorem readsAs_text (n : Nat) (s : String) : ReadsAs (value n) (write (.text s)) (.text s) where
  start := ⟨'"', rfl, rfl⟩
  reads rest _ := by
    have htext : text (write (.text s) ++ rest) = some (s, rest) := text_writeText s
    rw [value_of_scalar (by rintro c ⟨⟩; decide), scalar, orElse_of_none rfl, orElse_of_none rfl,
      orElse_of_none rfl, orElse_of_some (bind_of_some htext)]

/-- Stored data are read at their depth. -/
theorem readsAs_value {n : Nat} {d : Data} (h : Storable n d) : ReadsAs (value n) (write d) d := by
  induction h with
  | @null n => exact ⟨⟨'n', rfl, rfl⟩, fun rest _ => by cases n <;> rfl⟩
  | @bool n b =>
    cases b with
    | true => exact ⟨⟨'t', rfl, rfl⟩, fun rest _ => by cases n <;> rfl⟩
    | false => exact ⟨⟨'f', rfl, rfl⟩, fun rest _ => by cases n <;> rfl⟩
  | int h => exact readsAs_int h
  | text s => exact readsAs_text _ s
  | @list n items h ih =>
    refine ⟨⟨'[', rfl, rfl⟩, fun rest _ => ?_⟩
    rw [write, writeItems_eq, List.append_assoc]
    exact orElse_of_some (bind_of_some (items_joined ih))
  | @table n members h names ih =>
    refine ⟨⟨'\x7b', rfl, rfl⟩, fun rest _ => ?_⟩
    rw [write, writeMembers_eq, List.append_assoc, value, orElse_of_none rfl]
    exact orElse_of_some (bind_of_some (members_joined ih names))

/-- What is written for stored data is read as the data. -/
theorem read?_write {d : Data} (h : Storable depth d) :
    read? (String.ofList (write d)) = some d := by
  have hvalue := readsAs_value h
  have hspaces : spaces (write d) = some ((), write d) := by
    have hstart : ∀ c ∈ (write d ++ []).head?, isSpace c = false := hvalue.not_isSpace
    rw [List.append_nil] at hstart
    exact spaces_of_head? hstart
  have hread : value depth (write d) = some (d, []) := by
    simpa using hvalue.reads [] nofun
  have hwhole : (spaces *> value depth <* spaces) (write d) = some (d, []) :=
    seqLeft_of_some ((seqRight_of_some hspaces).trans hread) rfl
  rw [read?, String.toList_ofList, whole?, hwhole]

end LinProg.Json
