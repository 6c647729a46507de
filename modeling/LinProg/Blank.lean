/-!
# Blank characters

The Unicode property `White_Space` as a table of code point ranges, and the removal of blank
characters at the ends of a text. Texts are lists of characters throughout the library; letters
and digits are those of ASCII.
-/

namespace LinProg.Blank

/-- The code point ranges of `White_Space`, both ends included, in increasing order. -/
def ranges : List (Nat × Nat) :=
  [(0x9, 0xD), (0x20, 0x20), (0x85, 0x85), (0xA0, 0xA0), (0x1680, 0x1680), (0x2000, 0x200A),
    (0x2028, 0x2029), (0x202F, 0x202F), (0x205F, 0x205F), (0x3000, 0x3000)]

def isBlank (c : Char) : Bool :=
  ranges.any fun r => r.1 ≤ c.toNat && c.toNat ≤ r.2

def trimStart (t : List Char) : List Char := t.dropWhile isBlank

def trimEnd (t : List Char) : List Char := (t.reverse.dropWhile isBlank).reverse

def trim (t : List Char) : List Char := trimEnd (trimStart t)

/-- A text without its blank characters. -/
def squeeze (t : List Char) : List Char := t.filter fun c => !isBlank c

theorem not_isBlank_of_isDigit {c : Char} (h : c.isDigit = true) : isBlank c = false := by
  simp only [Char.isDigit, Bool.and_eq_true, decide_eq_true_eq, ge_iff_le, UInt32.le_iff_toNat_le]
    at h
  have hc : c.val.toNat = c.toNat := rfl
  simp [isBlank, ranges]
  simp at h
  omega

theorem squeeze_append (s t : List Char) : squeeze (s ++ t) = squeeze s ++ squeeze t :=
  List.filter_append ..

theorem isBlank_of_mem_squeeze {c : Char} {t : List Char} (h : c ∈ squeeze t) :
    isBlank c = false := by
  simpa using (List.mem_filter.1 h).2

end LinProg.Blank
