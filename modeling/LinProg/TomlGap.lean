import LinProg.Reader

/-!
# Gaps in TOML

What stands between the values of a TOML document: blanks, line ends and comments.
-/

namespace LinProg.Toml

open Reader

def isSpace (c : Char) : Bool := c == ' ' || c == '\t'

/-- A character that may stand in a comment or a text. -/
def isPrinting (c : Char) : Bool :=
  c == '\t' || (0x20 ≤ c.toNat && c.toNat ≤ 0x7E) || 0x80 ≤ c.toNat

def spaces : Reader Unit := do
  let _ ← span isSpace

def newline : Reader Unit := exactly '\n' <|> word ['\r', '\n']

def comment : Reader Unit := do
  exactly '#'
  let _ ← span isPrinting

/-- Blanks and a comment. -/
def remark : Reader Unit := do
  spaces
  let _ ← attempt comment

def lineEnd : Reader Unit := do
  remark
  newline <|> atEnd

/-- Blanks, line ends and comments. -/
def gap : Reader Unit := do
  let _ ← many (remark *> newline)
  spaces

end LinProg.Toml
