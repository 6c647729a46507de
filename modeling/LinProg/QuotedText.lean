import LinProg.Unprintable

/-!
# Quoted texts

A text in double quotes, as messages show it. The quote and the backslash stand behind a
backslash; some control characters have a letter, and all other unprintable characters are written
by number.
-/

namespace LinProg.QuotedText

def byNumber (c : Char) : List Char :=
  ['\\', 'u', '\x7b'] ++ Nat.toDigits 16 c.toNat ++ ['\x7d']

def escape (c : Char) : List Char :=
  match c with
  | '"' => ['\\', '"']
  | '\\' => ['\\', '\\']
  | '\n' => ['\\', 'n']
  | '\r' => ['\\', 'r']
  | '\t' => ['\\', 't']
  | '\x00' => ['\\', '0']
  | c => if Unprintable.isUnprintable c then byNumber c else [c]

def quote (text : String) : String :=
  String.ofList ('"' :: text.toList.flatMap escape ++ ['"'])

end LinProg.QuotedText
