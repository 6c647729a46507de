import LinProg.TomlMoment
import LinProg.TomlNumber
import LinProg.TomlTable
import LinProg.TomlText

/-!
# TOML documents

A document is a run of pairs, followed by sections: a header and the pairs under it. `document`
reads its text, and `Document.data?` puts the sections together to one table, which fails where a
name is defined twice.

Keys have fewer than `depth` parts, and values are nested less than `depth` deep.
-/

namespace LinProg.Toml

open Reader

def depth : Nat := 80

def isBareKeyChar (c : Char) : Bool := c.isAlphanum || c == '_' || c == '-'

def keyPart : Reader String := do
  spaces
  let cs ← basicText <|> literalText <|> run isBareKeyChar
  spaces
  return String.ofList cs

def key : Reader (List String) := do
  let parts ← separated keyPart (exactly '.')
  if parts.length < depth then return parts else failure

def truth : Reader Bool :=
  (do word "true".toList; return true) <|> do word "false".toList; return false

/-- A value that holds no others. -/
def scalar : Reader Data :=
  (do return .text (String.ofList (← text))) <|>
  (do moment; return .moment) <|>
  (do return .float (← float)) <|>
  (do return .int (← integer)) <|>
  (do return .bool (← truth))

/-- The values of an array behind its opening bracket; a comma may follow the last of them. -/
def arrayEnd (value : Reader Data) : Reader (List Data) := do
  let items ← attempt do
    let items ← separated (gap *> value <* gap) (exactly ',')
    let _ ← attempt (exactly ',')
    return items
  gap
  exactly ']'
  return items.getD []

def pair (value : Reader Data) : Reader Pair := do
  let path ← key
  exactly '='
  spaces
  return ⟨path, ← value⟩

/-- The pairs of a table behind its opening brace, which stand in one line. -/
def inlineEnd (value : Reader Data) : Reader (List Pair) := do
  let pairs ← attempt (separated (pair value <* spaces) (exactly ','))
  spaces
  exactly '\x7d'
  return pairs.getD []

/-- A value with at most `n` levels of arrays and tables around its scalars. -/
def value : Nat → Reader Data
  | 0 => scalar
  | n + 1 =>
    (do exactly '['; return .list (← arrayEnd (value n))) <|>
    (do
      exactly '\x7b'
      let pairs ← inlineEnd (value n)
      match Members.addPairs pairs [] with
      | some ms => return .table (Node.membersData ms)
      | none => failure) <|>
    scalar

structure Section where
  /-- The section is one item of an array of tables. -/
  isItem : Bool
  path : List String
  pairs : List Pair

structure Document where
  pairs : List Pair
  sections : List Section

def blankLine : Reader Unit := remark *> newline

def pairLine : Reader Pair := do
  spaces
  let p ← pair (value (depth - 1))
  lineEnd
  return p

def pairLines : Reader (List Pair) := do
  let lines ← many ((do return some (← pairLine)) <|> (do blankLine; return none))
  return lines.filterMap id

def header : Reader (Bool × List String) := do
  spaces
  let itemPath : Reader (List String) := word ['[', '['] *> key <* word [']', ']']
  let tablePath : Reader (List String) := exactly '[' *> key <* exactly ']'
  let h ← (do return (true, ← itemPath)) <|> do return (false, ← tablePath)
  lineEnd
  return h

def headed : Reader Section := do
  let (isItem, path) ← header
  return ⟨isItem, path, ← pairLines⟩

/-- A document; a byte order mark before it is dropped. -/
def document : Reader Document := do
  let _ ← attempt (exactly '\ufeff')
  let pairs ← pairLines
  let sections ← many headed
  remark
  return ⟨pairs, sections⟩

/-- Adds a section to the table that the text before it defines. -/
def Section.place (s : Section) (ms : Members) : Option Members :=
  let put := if s.isItem then Members.placeItem else Members.placeTable
  Members.follow (put s.pairs) s.path ms

def Document.data? (d : Document) : Option Data := do
  let ms ← Members.addPairs d.pairs []
  let ms ← d.sections.foldlM (fun ms s => s.place ms) ms
  return .table (Node.membersData ms)

/-- The table that a text defines, if the text is a valid document. -/
def read? (text : String) : Option Data := do
  let d ← document.whole? text.toList
  d.data?

end LinProg.Toml
