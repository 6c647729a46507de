import LinProg.BasedDigits
import LinProg.Data
import LinProg.Numeral
import LinProg.Reader

/-!
# Reading JSON

A whole number is an integer if it fits 64 bits, with a sign or without, and a float otherwise; so
is minus zero. Of members of one name the last one counts, in the place of the first. Values are
nested at most `depth` deep.
-/

namespace LinProg.Json

open Reader

def isSpace (c : Char) : Bool := c == ' ' || c == '\t' || c == '\n' || c == '\r'

def spaces : Reader Unit := do
  let _ ← span isSpace

/-- A mark with blanks on both sides. -/
def mark (c : Char) : Reader Unit := spaces *> exactly c <* spaces

def unit16 : Reader Nat := do
  return BasedDigits.value 16 (← count 4 BasedDigits.isHexDigit)

/-- A character by its number, or by the two halves of a number beyond sixteen bits. -/
def numbered : Reader Char := do
  let high ← unit16
  if 0xD800 ≤ high ∧ high < 0xDC00 then
    word ['\\', 'u']
    let low ← unit16
    if 0xDC00 ≤ low ∧ low < 0xE000 then
      return Char.ofNat (0x10000 + (high - 0xD800) * 0x400 + (low - 0xDC00))
    else failure
  else if high.isValidChar then return Char.ofNat high
  else failure

def escaped : Reader Char := do
  exactly '\\'
  match ← char fun _ => true with
  | 'b' => return '\x08'
  | 'f' => return '\x0c'
  | 'n' => return '\n'
  | 'r' => return '\r'
  | 't' => return '\t'
  | 'u' => numbered
  | c => if c == '"' || c == '\\' || c == '/' then return c else failure

def isUnescaped (c : Char) : Bool := c != '"' && c != '\\' && 0x20 ≤ c.toNat

def text : Reader String := do
  exactly '"'
  let parts ← many (run isUnescaped <|> List.singleton <$> escaped)
  exactly '"'
  return String.ofList parts.flatten

def wholeDigits : Reader (List Char) :=
  (do exactly '0'; return ['0']) <|> run Char.isDigit

def fraction : Reader (List Char) := do
  exactly '.'
  return '.' :: (← run Char.isDigit)

def exponent : Reader (List Char) := do
  let _ ← char fun c => c == 'e' || c == 'E'
  let s ← attempt (char fun c => c == '+' || c == '-')
  return 'e' :: s.toList ++ (← run Char.isDigit)

/-- The integer of a sign and digits, if it is one of 64 bits. -/
def integer? (negative : Bool) (digits : List Char) : Option Int :=
  let n := BasedDigits.value 10 digits
  if negative then if 0 < n ∧ n ≤ 2 ^ 63 then some (-(n : Int)) else none
  else if n < 2 ^ 64 then some n
  else none

def number : Reader Data := do
  let minus ← attempt (char (· == '-'))
  let whole ← wholeDigits
  let f ← attempt fraction
  let e ← attempt exponent
  let tail := f.getD [] ++ e.getD []
  match tail, integer? minus.isSome whole with
  | [], some n => return .int n
  | _, _ =>
    match Numeral.ofText? (minus.toList ++ whole ++ tail) with
    | some n => if Double.isFinite n.toFloat then return .float n.toFloat else failure
    | none => failure

def scalar : Reader Data :=
  (do word "null".toList; return .null) <|>
  (do word "true".toList; return .bool true) <|>
  (do word "false".toList; return .bool false) <|>
  (do return .text (← text)) <|>
  number

def withMember (members : List (String × Data)) (m : String × Data) : List (String × Data) :=
  if (members.lookup m.1).isSome then members.map fun k => if k.1 == m.1 then m else k
  else members ++ [m]

def items (value : Reader Data) : Reader (List Data) := do
  exactly '['
  spaces
  let items ← attempt (separated value (mark ','))
  spaces
  exactly ']'
  return items.getD []

def member (value : Reader Data) : Reader (String × Data) := do
  let key ← text
  mark ':'
  return (key, ← value)

def members (value : Reader Data) : Reader (List (String × Data)) := do
  exactly '\x7b'
  spaces
  let ms ← attempt (separated (member value) (mark ','))
  spaces
  exactly '\x7d'
  return (ms.getD []).foldl withMember []

def depth : Nat := 127

/-- A value with at most `n` levels of lists and tables around its scalars. -/
def value : Nat → Reader Data
  | 0 => scalar
  | n + 1 =>
    (do return .list (← items (value n))) <|> (do return .table (← members (value n))) <|> scalar

def read? (t : String) : Option Data :=
  (spaces *> value depth <* spaces).whole? t.toList

end LinProg.Json
