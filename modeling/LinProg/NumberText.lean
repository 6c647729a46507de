import LinProg.ShortestDecimal

/-!
# The text of a number

Two ways of writing a double. `Double.text` has the fewest digits that read back, the upper of two
equally near decimals, never an exponent, and no point in a whole number. `Double.scientificText`
has as many digits, the even one of two equally near decimals, but changes to an exponent where the
plain form grows long; it always has a point or an exponent, and the exponent has a sign.
-/

namespace LinProg.Double

/-- A text for the size of a double, put behind its sign; infinity and the rest have names. -/
def signedText (size : Nat → List Char) (x : Float) : List Char :=
  if infinite < magnitude x then "NaN".toList
  else
    let body := if magnitude x = infinite then "inf".toList else size (magnitude x)
    if isNegative x then '-' :: body else body

def text (x : Float) : List Char := signedText (fun p => (Decimal.shortest .up p).plain) x

/-- The plain text with `.0` behind a whole number. -/
def pointedText (x : Float) : List Char :=
  let t := text x
  if isFinite x && !t.contains '.' then t ++ ".0".toList else t

/-- Positional where the point falls within 16 places before the number or 5 behind its start. -/
def scientific (d : Decimal) : List Char :=
  let ds := Nat.toDigits 10 d.coefficient
  let point : Int := ds.length + d.exponent
  if 0 ≤ d.exponent && point ≤ 16 then d.plain ++ ".0".toList
  else if -5 < point && point ≤ 16 then d.plain
  else
    let mantissa := if ds.length = 1 then ds else ds.take 1 ++ '.' :: ds.drop 1
    mantissa ++ 'e' :: if 0 < point then '+' :: Nat.toDigits 10 (point.toNat - 1)
      else '-' :: Nat.toDigits 10 (1 - point).toNat

def scientificText (x : Float) : List Char :=
  signedText (fun p => scientific (Decimal.shortest .toEven p)) x

end LinProg.Double
