import LinProg.Data
import LinProg.Enumeration
import LinProg.NumberText
import LinProg.QuotedText

/-!
# Decoding data

How numbers, flags and members of enumerations are read from data, and what goes wrong. The two
formats differ in how an error shows a number, and in how much is said about data of the wrong
shape. In both, a member may also be written as a table whose one key is its name; the value
behind the key has to be empty.
-/

namespace LinProg

inductive DataFormat where
  | json
  | toml
deriving Repr, DecidableEq

inductive DecodeError where
  | unknownName (name : String) (names : List String)
  | wrongType (found expected : String)
  | wrongValue (found expected : String)
  | wrongLength (found : Nat) (expected : String)
  | noMatch (type : String)
  /-- Data of a shape that is not described any further. -/
  | wrongShape
deriving Repr, DecidableEq

namespace DecodeError

def ticked (text : String) : String := "`" ++ text ++ "`"

def alternatives : List String → String
  | [a, b] => ticked a ++ " or " ++ ticked b
  | names => "one of " ++ ", ".intercalate (names.map ticked)

def message : DecodeError → String
  | .unknownName name names =>
    "unknown variant " ++ ticked name ++ ", expected " ++ alternatives names
  | .wrongType found expected => s!"invalid type: {found}, expected {expected}"
  | .wrongValue found expected => s!"invalid value: {found}, expected {expected}"
  | .wrongLength found expected => s!"invalid length {found}, expected {expected}"
  | .noMatch type => s!"data did not match any variant of untagged enum {type}"
  | .wrongShape => "wrong shape"

end DecodeError

abbrev Decoded (α : Type) := Except DecodeError α

namespace DataFormat

def floatText (f : DataFormat) (x : Float) : String :=
  String.ofList <| match f with
    | .json => Double.scientificText x
    | .toml => Double.pointedText x

/-- What an error says about the data it found. -/
def describe (f : DataFormat) : Data → String
  | .null => "null"
  | .bool b => "boolean " ++ DecodeError.ticked (toString b)
  | .int n => "integer " ++ DecodeError.ticked (toString n)
  | .float x => "floating point " ++ DecodeError.ticked (f.floatText x)
  | .text s => "string " ++ QuotedText.quote s
  | .list _ => "sequence"
  | .moment | .table _ => "map"

def wrongType {α : Type} (f : DataFormat) (d : Data) (expected : String) : Decoded α :=
  .error (.wrongType (f.describe d) expected)

/-- A natural number below `bound`. -/
def decodeNat (f : DataFormat) (bound : Nat) (type : String) (d : Data) : Decoded Nat :=
  match d with
  | .int n =>
    if 0 ≤ n ∧ n < bound then .ok n.toNat else .error (.wrongValue (f.describe d) type)
  | _ => f.wrongType d type

def decodeUInt32 (f : DataFormat) (d : Data) : Decoded UInt32 :=
  (f.decodeNat (2 ^ 32) "u32" d).map UInt32.ofNat

def decodeUInt64 (f : DataFormat) (d : Data) : Decoded UInt64 :=
  (f.decodeNat (2 ^ 64) "u64" d).map UInt64.ofNat

def decodeBool (f : DataFormat) : Data → Decoded Bool
  | .bool b => .ok b
  | d => f.wrongType d "a boolean"

def decodeName (α : Type) [Enumeration α] (name : String) : Decoded α :=
  match Enumeration.ofDataName? name with
  | some a => .ok a
  | none => .error (.unknownName name (Enumeration.dataNames α))

/-- Nothing, as the value behind the name of a member. -/
def decodeEmpty (f : DataFormat) (d : Data) : Decoded Unit :=
  match f, d with
  | .json, .null => .ok ()
  | .json, d => f.wrongType d "unit"
  | .toml, .list [] | .toml, .table [] => .ok ()
  | .toml, _ => .error .wrongShape

def decodeMember (α : Type) [Enumeration α] (f : DataFormat) : Data → Decoded α
  | .text name => decodeName α name
  | .table [(name, d)] => do
    let a ← decodeName α name
    f.decodeEmpty d
    return a
  | d =>
    match f, d with
    | .toml, _ => .error .wrongShape
    | .json, .table _ => .error (.wrongValue "map" "map with a single key")
    | .json, d => f.wrongType d "string or map"

end DataFormat

end LinProg
