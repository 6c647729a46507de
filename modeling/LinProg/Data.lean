/-!
# Data

The values that the notations for stored data have in common: JSON and TOML. A table keeps the
order of its members. Integers have no bound; dates and times are kept as mere moments, since
nothing that is read here holds one.
-/

namespace LinProg

inductive Data where
  | null
  | bool (b : Bool)
  | int (n : Int)
  | float (x : Float)
  | text (s : String)
  | moment
  | list (items : List Data)
  | table (members : List (String × Data))
deriving Inhabited

end LinProg
