import LinProg.OptionsData
import LinProg.Solver
import LinProg.TomlDocument

/-!
# Options files

Options are kept in TOML, as a text or in a file. What can go wrong is that the file cannot be
read, that its text is no valid document, or that the document cannot be decoded.
-/

namespace LinProg

inductive FileDefect where
  | missing
  | notText
deriving Repr, DecidableEq

def FileDefect.reason : FileDefect → String
  | .missing => "No such file or directory (os error 2)"
  | .notText => "stream did not contain valid UTF-8"

inductive ConfigError where
  | unreadable (defect : FileDefect)
  | malformed
  | undecodable (e : DecodeError)
deriving Repr, DecidableEq

namespace ConfigError

/-- What is wrong, without the stage at which it was found. -/
def detail : ConfigError → String
  | .unreadable defect => defect.reason
  | .malformed => "malformed document"
  | .undecodable e => e.message

def message (e : ConfigError) : String :=
  match e with
  | .unreadable _ => "IO error: " ++ e.detail
  | _ => "TOML parse error: " ++ e.detail

def solveError (e : ConfigError) : SolveError := .config e.message

end ConfigError

namespace Options

def ofToml (text : String) : Except ConfigError Options :=
  match Toml.read? text with
  | none => .error .malformed
  | some d => (ofData .toml d).mapError .undecodable

/-- Reads the contents of a file, which are missing if there is no such file. -/
def ofFile (contents : Option ByteArray) : Except ConfigError Options :=
  match contents with
  | none => .error (.unreadable .missing)
  | some bytes =>
    match String.fromUTF8? bytes with
    | none => .error (.unreadable .notText)
    | some text => ofToml text

end Options

def Solver.ofOptions (o : Options) : Solver where
  direction := o.direction
  scaling := o.scaling
  verbosity := o.verbosity
  timeout := o.timeout
  throwOnFailure := o.throwOnFailure
  choice := o.choice

end LinProg
