import LinProg.Enumeration

/-!
# Comparisons

How the left-hand side of a row compares with its right-hand side. Engines know comparisons by
the codes 1, 2 and 3; constraints are written with the symbols `<=`, `=` and `>=`.
-/

namespace LinProg

inductive Comparison where
  | lessOrEqual
  | equal
  | greaterOrEqual
deriving Repr, DecidableEq

namespace Comparison

instance : Inhabited Comparison := ⟨.lessOrEqual⟩

def code : Comparison → Int
  | .lessOrEqual => 1
  | .greaterOrEqual => 2
  | .equal => 3

def ofCode? : Int → Option Comparison
  | 1 => some .lessOrEqual
  | 2 => some .greaterOrEqual
  | 3 => some .equal
  | _ => none

def symbol : Comparison → String
  | .lessOrEqual => "<="
  | .equal => "="
  | .greaterOrEqual => ">="

/-- Everything but the two symbols for an inequality is taken for an equality. -/
def ofSymbol (t : List Char) : Comparison :=
  if t = ['<', '='] then .lessOrEqual
  else if t = ['>', '='] then .greaterOrEqual
  else .equal

/-- The comparison as a relation between rational numbers. -/
def Holds : Comparison → Rat → Rat → Prop
  | .lessOrEqual, a, b => a ≤ b
  | .equal, a, b => a = b
  | .greaterOrEqual, a, b => b ≤ a

instance : (c : Comparison) → (a b : Rat) → Decidable (c.Holds a b)
  | .lessOrEqual, a, b => inferInstanceAs (Decidable (a ≤ b))
  | .equal, a, b => inferInstanceAs (Decidable (a = b))
  | .greaterOrEqual, a, b => inferInstanceAs (Decidable (b ≤ a))

instance : Enumeration Comparison where
  members := [.lessOrEqual, .equal, .greaterOrEqual]
  dataName
    | .lessOrEqual => "less_or_equal"
    | .equal => "equal"
    | .greaterOrEqual => "greater_or_equal"
  find_dataName a := by cases a <;> rfl

theorem ofCode?_code (c : Comparison) : ofCode? c.code = some c := by cases c <;> rfl

theorem ofCode?_eq_some_iff {n : Int} {c : Comparison} : ofCode? n = some c ↔ n = c.code := by
  constructor
  · intro h
    unfold ofCode? at h
    split at h <;> simp_all [code]
    all_goals subst h; rfl
  · rintro rfl
    exact ofCode?_code c

theorem ofSymbol_symbol (c : Comparison) : ofSymbol c.symbol.toList = c := by
  cases c <;> decide

end Comparison

end LinProg
