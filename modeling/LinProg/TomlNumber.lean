import LinProg.BasedDigits
import LinProg.Numeral
import LinProg.TomlGap

/-!
# Numbers in TOML

Underscores may stand between digits. No number has zeros before its digits. An integer has to fit
64 bits with its sign, and a number too great for a double is an error unless it is negative.
-/

namespace LinProg.Toml

open Reader

/-- Digits of a class, with single underscores between them left out. -/
def grouped (p : Char → Bool) : Reader (List Char) := do
  let c ← char p
  let cs ← many (char p <|> (exactly '_' *> char p))
  return c :: cs

def sign : Reader (List Char) := do
  let c ← attempt (char fun c => c == '+' || c == '-')
  return c.toList

/-- The digits before the point; a zero stands alone. -/
def wholeDigits : Reader (List Char) := (do exactly '0'; return ['0']) <|> grouped Char.isDigit

def fitting (n : Int) : Reader Int :=
  if -2 ^ 63 ≤ n ∧ n < 2 ^ 63 then return n else failure

def decimal : Reader Int := do
  let s ← sign
  let n : Int := BasedDigits.value 10 (← wholeDigits)
  fitting (if s = ['-'] then -n else n)

def based (mark : Char) (base : Nat) : Reader Int := do
  word ['0', mark]
  let ds ← grouped (BasedDigits.isDigitOf base)
  fitting (BasedDigits.value base ds)

def integer : Reader Int := based 'x' 16 <|> based 'o' 8 <|> based 'b' 2 <|> decimal

def fraction : Reader (List Char) := do
  exactly '.'
  let ds ← grouped Char.isDigit
  return '.' :: ds

def exponent : Reader (List Char) := do
  let _ ← char fun c => c == 'e' || c == 'E'
  let s ← sign
  let ds ← grouped Char.isDigit
  return 'e' :: s ++ ds

/-- A fraction, an exponent or both. -/
def floatTail : Reader (List Char) := exponent <|> do
  let f ← fraction
  let e ← attempt exponent
  return f ++ e.getD []

def decimalFloat : Reader Float := do
  let s ← sign
  let whole ← wholeDigits
  let tail ← floatTail
  match Numeral.ofText? (s ++ whole ++ tail) with
  | some n => if n.toFloat == Double.posInf then failure else return n.toFloat
  | none => failure

def infinity : Reader Float := do
  let s ← sign
  word ['i', 'n', 'f']
  return Double.ofPosition (s == ['-']) Double.infinite

def notANumber : Reader Float := do
  let _ ← sign
  word ['n', 'a', 'n']
  return Double.nan

def float : Reader Float := decimalFloat <|> infinity <|> notANumber

end LinProg.Toml
