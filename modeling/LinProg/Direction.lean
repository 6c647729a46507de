import LinProg.Blank
import LinProg.Enumeration
import LinProg.SolveError

/-!
# Directions of optimization

A direction is read from one of four names each, blank characters around the name and the case of
its letters being ignored.
-/

namespace LinProg

inductive Direction where
  | minimize
  | maximize
deriving Repr, DecidableEq

namespace Direction

instance : Inhabited Direction := ⟨.minimize⟩

def spellings : Direction → List String
  | .minimize => ["min", "minimize", "minimise", "set_minim"]
  | .maximize => ["max", "maximize", "maximise", "set_maxim"]

def ofText? (text : String) : Option Direction :=
  let name := String.ofList ((Blank.trim text.toList).map Char.toLower)
  [minimize, maximize].find? fun d => d.spellings.contains name

def read (text : String) : Except SolveError Direction :=
  match ofText? text with
  | some direction => .ok direction
  | none => .error (.invalidDirection text)

def name : Direction → String
  | .minimize => "minimize"
  | .maximize => "maximize"

instance : Enumeration Direction where
  members := [.minimize, .maximize]
  dataName := name
  find_dataName a := by cases a <;> rfl

end Direction

end LinProg
