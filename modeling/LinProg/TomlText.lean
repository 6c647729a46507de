import LinProg.BasedDigits
import LinProg.TomlGap

/-!
# Texts in TOML

A text stands in double quotes, with escapes, or in single quotes, without; either quote written
three times begins a text of several lines, which may hold one or two of the quote in a row. A
line end right behind the opening quotes is dropped, and all others are read as `\n`.
-/

namespace LinProg.Toml

open Reader

/-- The character of a number of `n` hexadecimal digits. -/
def numbered (n : Nat) : Reader Char := do
  let code := BasedDigits.value 16 (← count n BasedDigits.isHexDigit)
  if code.isValidChar then return Char.ofNat code else failure

def escaped : Reader Char := do
  exactly '\\'
  match ← char fun _ => true with
  | 'b' => return '\x08'
  | 'f' => return '\x0c'
  | 'n' => return '\n'
  | 'r' => return '\r'
  | 't' => return '\t'
  | '"' => return '"'
  | '\\' => return '\\'
  | 'u' => numbered 4
  | 'U' => numbered 8
  | _ => failure

def inQuotes (quote c : Char) : Bool := isPrinting c && c != quote

def isUnescaped (c : Char) : Bool := inQuotes '"' c && c != '\\'

def basicText : Reader (List Char) := do
  exactly '"'
  let cs ← many (char isUnescaped <|> escaped)
  exactly '"'
  return cs

def literalText : Reader (List Char) := do
  exactly '\''
  let cs ← span (inQuotes '\'')
  exactly '\''
  return cs

def lineBreak : Reader (List Char) := do
  newline
  return ['\n']

/-- A backslash that joins lines: it stands for itself and all blanks and line ends behind it. -/
def joint : Reader (List Char) := do
  exactly '\\'
  spaces
  newline
  let _ ← many (newline <|> (do let _ ← char isSpace))
  return []

/-- A text between tripled quotes. `part` reads what is no quote; up to two quotes count as part of
the text where such a part or the closing quotes follow. -/
def tripled (quote : Char) (part : Reader (List Char)) : Reader (List Char) := do
  let fence := List.replicate 3 quote
  word fence
  let _ ← attempt newline
  let quotesBefore (n : Nat) (next : Reader Unit) : Reader (List Char) := do
    word (List.replicate n quote)
    ahead next
    return List.replicate n quote
  let partNext : Reader Unit := do let _ ← part
  let quotes (next : Reader Unit) := quotesBefore 2 next <|> quotesBefore 1 next
  let cs ← many (part <|> quotes partNext)
  let last ← attempt (quotes (word fence))
  word fence
  return cs.flatten ++ last.getD []

def basicLines : Reader (List Char) :=
  tripled '"' (List.singleton <$> char isUnescaped <|> joint <|> List.singleton <$> escaped <|>
    lineBreak)

def literalLines : Reader (List Char) :=
  tripled '\'' (List.singleton <$> char (inQuotes '\'') <|> lineBreak)

def text : Reader (List Char) := basicLines <|> basicText <|> literalLines <|> literalText

end LinProg.Toml
