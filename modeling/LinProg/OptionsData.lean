import LinProg.DataDecoding
import LinProg.Options

/-!
# Options as data

Options are stored as a table of six members, all of which are written. Any of them may be missing
when they are read, and members of other names do not count; the first member that cannot be
decoded is the error. JSON may also list the values without their names, in the order of
`Options.names`.
-/

namespace LinProg.Options

def names : List String :=
  ["direction", "backend", "scaling", "verbosity", "timeout_secs", "throw_on_failure"]

def memberData {α : Type} [Enumeration α] (a : α) : Data := .text (Enumeration.dataName a)

def timeoutData : Option UInt64 → Data
  | some seconds => .int seconds.toNat
  | none => .null

def toMembers (o : Options) : List (String × Data) :=
  [("direction", memberData o.direction), ("backend", memberData o.choice),
    ("scaling", .int o.scaling.bits.toNat), ("verbosity", memberData o.verbosity),
    ("timeout_secs", timeoutData o.timeoutSeconds), ("throw_on_failure", .bool o.throwOnFailure)]

def toData (o : Options) : Data := .table o.toMembers

def decodeTimeout (f : DataFormat) : Data → Decoded (Option UInt64)
  | .null => .ok none
  | d => (f.decodeUInt64 d).map some

/-- The options with one member set. -/
def withMember (f : DataFormat) (o : Options) (member : String × Data) : Decoded Options :=
  let d := member.2
  match member.1 with
  | "direction" => (f.decodeMember Direction d).map fun direction => { o with direction }
  | "backend" => (f.decodeMember EngineChoice d).map fun choice => { o with choice }
  | "scaling" => (f.decodeUInt32 d).map fun bits => { o with scaling := ⟨bits⟩ }
  | "verbosity" => (f.decodeMember Verbosity d).map fun verbosity => { o with verbosity }
  | "timeout_secs" => (decodeTimeout f d).map fun t => { o with timeoutSeconds := t }
  | "throw_on_failure" => (f.decodeBool d).map fun flag => { o with throwOnFailure := flag }
  | _ => .ok o

def ofMembers (f : DataFormat) (members : List (String × Data)) : Decoded Options :=
  members.foldlM (withMember f) default

def ofData (f : DataFormat) : Data → Decoded Options
  | .table members => ofMembers f members
  | .list items => do
    let o ← ofMembers f (names.zip items)
    if items.length ≤ names.length then return o
    else .error (.wrongLength items.length "fewer elements in array")
  | d => f.wrongType d "struct SolverOptions"

end LinProg.Options
