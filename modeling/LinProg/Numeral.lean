import LinProg.Blank
import LinProg.DoubleGrid

/-!
# Decimal numerals

A numeral is an optional sign, digits with an optional point among, before or after them, and an
optional exponent. `Numeral.scan` takes the longest numeral at the start of a text;
`Numeral.toFloat` is the double nearest to its value, infinity beyond the greatest double and a
zero of the numeral's sign below the least.

`leadingNumber` reads texts that need not be numerals: blank characters before the numeral and
everything behind it are ignored, and a text without a numeral counts as zero.
-/

namespace LinProg

/-- A numeral by its parts: the digits before and behind the point, and the power of ten. -/
structure Numeral where
  negative : Bool
  whole : List Char
  fraction : List Char
  exponent : Int
deriving Repr, DecidableEq

namespace Numeral

def digits (n : Numeral) : List Char := n.whole ++ n.fraction

/-- The digits read as one natural number. -/
def coefficient (n : Numeral) : Nat := Nat.ofDigitChars 10 n.digits 0

/-- The power of ten that the coefficient is multiplied by. -/
def scale (n : Numeral) : Int := n.exponent - n.fraction.length

/-- The value lies below this power of ten, and not below the one before it. -/
def order (n : Numeral) : Int := (n.digits.dropWhile (· == '0')).length + n.scale

/-- No double but zero and infinity has an order beyond this one in either direction. -/
def reach : Int := 400

/-- The position on the grid of doubles that is nearest to the value without its sign. -/
def position (n : Numeral) : Nat :=
  if n.coefficient = 0 then 0
  else if reach < n.order then Double.infinite
  else if n.order < -reach then 0
  else Double.nearest (n.coefficient * 10 ^ n.scale.toNat) (10 ^ (-n.scale).toNat)

def toFloat (n : Numeral) : Float := Double.ofPosition n.negative n.position

/-- An optional sign: whether it is a minus, and the text behind it. -/
def scanSign : List Char → Bool × List Char
  | '-' :: t => (true, t)
  | '+' :: t => (false, t)
  | t => (false, t)

def scanDigits (t : List Char) : List Char × List Char :=
  (t.takeWhile Char.isDigit, t.dropWhile Char.isDigit)

def scanFraction : List Char → List Char × List Char
  | '.' :: t => scanDigits t
  | t => ([], t)

/-- An exponent, given up as a whole when it has no digits. -/
def scanExponent : List Char → Int × List Char
  | c :: t =>
    let (negative, u) := scanSign t
    let (ds, rest) := scanDigits u
    if (c == 'e' || c == 'E') && !ds.isEmpty then
      let n : Int := Nat.ofDigitChars 10 ds 0
      (if negative then -n else n, rest)
    else (0, c :: t)
  | [] => (0, [])

/-- The longest numeral at the start of a text, and the text behind it. -/
def scan (t : List Char) : Option (Numeral × List Char) :=
  let (negative, t) := scanSign t
  let (whole, t) := scanDigits t
  let (fraction, t) := scanFraction t
  if whole.isEmpty && fraction.isEmpty then none
  else
    let (exponent, t) := scanExponent t
    some (⟨negative, whole, fraction, exponent⟩, t)

/-- The numeral that makes up the whole text. -/
def ofText? (t : List Char) : Option Numeral :=
  match scan t with
  | some (n, []) => some n
  | _ => none

end Numeral

def leadingNumber (t : List Char) : Float :=
  match Numeral.scan (Blank.trimStart t) with
  | some (n, _) => n.toFloat
  | none => Double.zero

namespace Numeral

theorem scanDigits_append (t : List Char) : (scanDigits t).1 ++ (scanDigits t).2 = t :=
  List.takeWhile_append_dropWhile

theorem isDigit_of_mem_scanDigits {c : Char} {t : List Char} (h : c ∈ (scanDigits t).1) :
    c.isDigit = true :=
  List.all_eq_true.1 List.all_takeWhile c h

end Numeral

end LinProg
