import LinProg.Data

/-!
# Tables under construction

A TOML document defines its tables piece by piece, and its rules tell how a table came about: by a
header, as a step on the way of a longer header, or by dotted keys. `addPair` puts a value behind a
dotted key; a table that a header has opened takes no more pairs through dotted keys from outside.
`placeTable` and `placeItem` put the table of a header, or one item of an array of tables, in its
place. All of them give `none` where a name is taken already.
-/

namespace LinProg.Toml

/-- A value behind a dotted key. -/
structure Pair where
  path : List String
  value : Data

inductive Origin where
  | header
  | step
  | dotted
deriving Repr, DecidableEq

inductive Node where
  | value (d : Data)
  | table (origin : Origin) (members : List (String × Node))
  | items (tables : List (List (String × Node)))

abbrev Members := List (String × Node)

namespace Node

mutual

def toData : Node → Data
  | .value d => d
  | .table _ members => .table (membersData members)
  | .items tables => .list (itemsData tables)

def membersData : List (String × Node) → List (String × Data)
  | [] => []
  | (key, node) :: members => (key, node.toData) :: membersData members

def itemsData : List (List (String × Node)) → List Data
  | [] => []
  | members :: tables => .table (membersData members) :: itemsData tables

end

end Node

namespace Members

def set (ms : Members) (key : String) (node : Node) : Members :=
  ms.map fun m => if m.1 == key then (key, node) else m

def without (ms : Members) (key : String) : Members := ms.filter fun m => m.1 != key

/-- Changes the last of the items of an array of tables. -/
def changeLast (change : Members → Option Members) (tables : List Members) :
    Option (List Members) :=
  match tables.getLast? with
  | none => none
  | some last => (change last).map fun ms => tables.dropLast ++ [ms]

/-- Puts a value behind a dotted key. Only where `isOpen` holds may the key end in this table. -/
def addPair (value : Data) (isOpen : Bool) : List String → Members → Option Members
  | [], _ => none
  | [key], ms =>
    if isOpen && (ms.lookup key).isNone then some (ms ++ [(key, .value value)]) else none
  | key :: path, ms =>
    match ms.lookup key with
    | none => (addPair value true path []).map fun sub => ms ++ [(key, .table .dotted sub)]
    | some (.table .dotted sub) =>
      (addPair value true path sub).map fun sub => ms.set key (.table .dotted sub)
    | some (.table .step sub) =>
      (addPair value false path sub).map fun sub => ms.set key (.table .step sub)
    | some (.items tables) =>
      (changeLast (addPair value false path) tables).map fun tables => ms.set key (.items tables)
    | some _ => none

def addPairs (pairs : List Pair) (ms : Members) : Option Members :=
  pairs.foldlM (fun ms p => addPair p.value true p.path ms) ms

/-- Follows the path of a header to its last name and makes a change there. -/
def follow (change : String → Members → Option Members) : List String → Members → Option Members
  | [], _ => none
  | [key], ms => change key ms
  | key :: path, ms =>
    match ms.lookup key with
    | none => (follow change path []).map fun sub => ms ++ [(key, .table .step sub)]
    | some (.table origin sub) =>
      (follow change path sub).map fun sub => ms.set key (.table origin sub)
    | some (.items tables) =>
      (changeLast (follow change path) tables).map fun tables => ms.set key (.items tables)
    | some (.value _) => none

/-- The table of a header may continue one that was only a step so far. -/
def placeTable (pairs : List Pair) (key : String) (ms : Members) :
    Option Members :=
  let place (start : Members) :=
    (addPairs pairs start).map fun sub => ms.without key ++ [(key, .table .header sub)]
  match ms.lookup key with
  | none => place []
  | some (.table .step sub) => place sub
  | some _ => none

def placeItem (pairs : List Pair) (key : String) (ms : Members) :
    Option Members :=
  match ms.lookup key with
  | none => (addPairs pairs []).map fun sub => ms ++ [(key, .items [sub])]
  | some (.items tables) =>
    (addPairs pairs []).map fun sub => ms.set key (.items (tables ++ [sub]))
  | some _ => none

end Members

end LinProg.Toml
