/-!
# Readers

A reader takes a part from the start of a text. One reader after the other reads two parts in
sequence, and `a <|> b` reads `b` where `a` fails. `many` repeats a reader that takes at least one
character each time, so the length of the text bounds the repetition.
-/

namespace LinProg

abbrev Reader := StateT (List Char) Option

namespace Reader

variable {α : Type}

def char (p : Char → Bool) : Reader Char
  | c :: rest => if p c then some (c, rest) else none
  | [] => none

def exactly (c : Char) : Reader Unit := do
  let _ ← char (· == c)

def word (w : List Char) : Reader Unit := w.forM exactly

/-- As many characters of a class as follow each other. -/
def span (p : Char → Bool) : Reader (List Char) := fun t =>
  some (t.takeWhile p, t.dropWhile p)

/-- At least one character of a class. -/
def run (p : Char → Bool) : Reader (List Char) := do
  let cs ← span p
  if cs.isEmpty then failure else return cs

def atEnd : Reader Unit
  | [] => some ((), [])
  | _ => none

def attempt (r : Reader α) : Reader (Option α) := some <$> r <|> pure none

/-- Whether a reader would succeed; nothing is taken. -/
def ahead (r : Reader α) : Reader Unit := fun t => (r t).map fun _ => ((), t)

/-- At most `n` results of a reader, one after the other. -/
def upTo (r : Reader α) : Nat → Reader (List α)
  | 0 => pure []
  | n + 1 => fun t =>
    match r t with
    | none => some ([], t)
    | some (a, rest) => (upTo r n rest).map fun v => (a :: v.1, v.2)

def many (r : Reader α) : Reader (List α) := fun t => upTo r t.length t

/-- One or more parts, with a separator between each two. -/
def separated (r : Reader α) (separator : Reader Unit) : Reader (List α) := do
  let a ← r
  let as ← many (separator *> r)
  return a :: as

/-- A fixed number of characters of a class. -/
def count (n : Nat) (p : Char → Bool) : Reader (List Char) :=
  (List.range n).mapM fun _ => char p

/-- The value of a reader that makes sense of a whole text. -/
def whole? (r : Reader α) (t : List Char) : Option α :=
  match r t with
  | some (a, []) => some a
  | _ => none

end Reader

end LinProg
