/-!
# Enumerated types

An enumeration lists the members of a type in order and gives each a name under which it is
stored as data. `ofDataName?` reads such a name back, exactly as it was written, and it finds every
member by its name (`ofDataName?_dataName`): no member is missing from the list, and no two have the
same name.
-/

namespace LinProg

class Enumeration (α : Type) where
  members : List α
  dataName : α → String
  find_dataName (a : α) : (members.find? fun b => dataName b == dataName a) = some a

namespace Enumeration

variable {α : Type} [Enumeration α]

def ofDataName? (name : String) : Option α :=
  members.find? fun a => dataName a == name

/-- The names of all members, in order. -/
def dataNames (α : Type) [Enumeration α] : List String :=
  (members : List α).map dataName

theorem ofDataName?_dataName (a : α) : ofDataName? (dataName a) = some a := find_dataName a

end Enumeration

end LinProg
