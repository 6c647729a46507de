import LinProg.Constraint
import LinProg.SolveError

/-!
# Reading constraints

A constraint is written as a left-hand side, one comparison symbol and a number. On the left only
the positions of the variable names count, not the names: the text is cut at every name, that is
at every run of letters with the digits behind it, and the k-th piece gives the k-th coefficient.
What follows the last name is dropped. Blank characters on the left do not count at all.

A piece that ends in a bare sign is read as if a 1 stood behind it, and every piece is read up to
the end of the number it begins with. The only error is a number of comparison symbols other than
one; `cut` finds them from left to right, and a lone `<` or `>` is none.
-/

namespace LinProg.Constraint

theorem length_dropWhile_le {α : Type} (p : α → Bool) (l : List α) :
    (l.dropWhile p).length ≤ l.length :=
  (List.dropWhile_sublist p).length_le

/-- The pieces before each variable name, from left to right. -/
def pieces (t : List Char) : List (List Char) :=
  match h : t.dropWhile fun c => !c.isAlpha with
  | [] => []
  | _ :: rest =>
    have : ((rest.dropWhile Char.isAlpha).dropWhile Char.isDigit).length < t.length := by
      have h0 := length_dropWhile_le (fun c => !c.isAlpha) t
      have h1 := length_dropWhile_le Char.isAlpha rest
      have h2 := length_dropWhile_le Char.isDigit (rest.dropWhile Char.isAlpha)
      rw [h, List.length_cons] at h0
      omega
    (t.takeWhile fun c => !c.isAlpha) ::
      pieces ((rest.dropWhile Char.isAlpha).dropWhile Char.isDigit)
termination_by t.length

/-- Whether the last character is a sign, and which. -/
def trailingSign? (piece : List Char) : Option Bool :=
  match piece.getLast? with
  | some '-' => some true
  | some '+' => some false
  | _ => none

def pieceCoefficient (piece : List Char) : Float :=
  if piece.isEmpty then Double.signedOne false
  else
    match trailingSign? piece with
    | none => leadingNumber piece
    | some negative =>
      if piece.length ≤ 1 then Double.signedOne negative else leadingNumber (piece ++ ['1'])

/-- A plus is put before an expression that does not begin with a sign. -/
def withSign : List Char → List Char
  | [] => []
  | c :: t => if c = '+' ∨ c = '-' then c :: t else '+' :: c :: t

def readCoefficients (t : List Char) : List Float :=
  (pieces (withSign (Blank.squeeze t))).map pieceCoefficient

/-- The text before the first comparison symbol, and each symbol with the text up to the next. -/
def cut : List Char → List Char × List (List Char × List Char)
  | [] => ([], [])
  | '<' :: '=' :: t => ([], (['<', '='], (cut t).1) :: (cut t).2)
  | '>' :: '=' :: t => ([], (['>', '='], (cut t).1) :: (cut t).2)
  | '=' :: t => ([], (['='], (cut t).1) :: (cut t).2)
  | c :: t => (c :: (cut t).1, (cut t).2)

/-- A text with a wrong number of comparison symbols. -/
structure SymbolCount where
  text : List Char
  found : Nat
deriving Repr, DecidableEq

def SymbolCount.detail (e : SymbolCount) : String :=
  let text := String.ofList e.text
  let found := e.found
  s!"expected exactly one of '<=', '=', '>=' in '{text}', found {found}"

def read (t : List Char) : Except SymbolCount Constraint :=
  let t := Blank.trim t
  match cut t with
  | (left, [(symbol, right)]) =>
    .ok ⟨readCoefficients left, .ofSymbol symbol, leadingNumber right⟩
  | (_, symbols) => .error ⟨t, symbols.length⟩

def ofText (text : String) : Except SolveError Constraint :=
  (read text.toList).mapError fun e => .invalidFormat e.detail

end LinProg.Constraint
