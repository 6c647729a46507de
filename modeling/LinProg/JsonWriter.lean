import LinProg.Data
import LinProg.NumberText

/-!
# Writing JSON

Data are written without blanks. What JSON has no word for, moments and floats that are not
finite, is written as null.
-/

namespace LinProg.Json

def escape (c : Char) : List Char :=
  match c with
  | '"' => ['\\', '"']
  | '\\' => ['\\', '\\']
  | '\n' => ['\\', 'n']
  | '\r' => ['\\', 'r']
  | '\t' => ['\\', 't']
  | '\x08' => ['\\', 'b']
  | '\x0c' => ['\\', 'f']
  | c =>
    if c.toNat < 0x20 then
      ['\\', 'u'] ++ (Nat.toDigits 16 (0x10000 + c.toNat)).drop 1
    else [c]

def writeText (s : String) : List Char := '"' :: s.toList.flatMap escape ++ ['"']

def writeFloat (x : Float) : List Char :=
  if Double.isFinite x then Double.scientificText x else "null".toList

mutual

def write : Data → List Char
  | .null | .moment => "null".toList
  | .bool b => (toString b).toList
  | .int n => (toString n).toList
  | .float x => writeFloat x
  | .text s => writeText s
  | .list items => '[' :: writeItems items ++ [']']
  | .table members => '\x7b' :: writeMembers members ++ ['\x7d']

def writeItems : List Data → List Char
  | [] => []
  | [d] => write d
  | d :: rest => write d ++ ',' :: writeItems rest

def writeMembers : List (String × Data) → List Char
  | [] => []
  | [(key, d)] => writeText key ++ ':' :: write d
  | (key, d) :: rest => writeText key ++ ':' :: write d ++ ',' :: writeMembers rest

end

end LinProg.Json
