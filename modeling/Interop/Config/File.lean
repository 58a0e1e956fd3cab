import Interop.Config.Default
import Interop.Config.Merge
import Interop.Files.Store
import Interop.Toml.Lexeme

/-!
# Configuration files

A configuration file is TOML in UTF-8.  It is looked for in three places: where the user says,
where the environment says, and in the working directory.  A file that someone asked for has to be
there; the one in the working directory need not be.  What is found is laid over the default
configuration.

Which texts are TOML and what they say is for a reader to decide that everything here takes as a
parameter.
-/

set_option autoImplicit false

namespace Interop.Config

/-- The places that a configuration file may be named in. -/
structure Sources where
  /-- The path that the user gave; an empty one counts as none. -/
  given : List Char
  /-- The path that the environment gives; an empty one counts as none. -/
  inherited : List Char
  homes : Homes
deriving DecidableEq, Repr

/-- Why no configuration can be loaded. -/
inductive LoadError
  /-- The file that the user asked for is not there. -/
  | missing (path : List Char)
  /-- The file that the environment asks for is not there. -/
  | missingInherited (path : List Char)
  | noHome
  | file (error : FileError)
  | notText (refusal : Text.Utf8.Refusal)
  | notToml
  | number (fault : NumberFault)
  | mismatch (mismatch : Mismatch)
deriving Repr

def LoadError.message : LoadError → String
  | missing path => "Could not find config file " ++ String.ofList path
  | missingInherited path =>
    "C2CS_CONFIG=" ++ String.ofList path ++ " does not point to a readable file"
  | noHome => "Could not determine home directory."
  | file error => String.ofList error.message
  | notText refusal => refusal.message
  | notToml => "<toml error>"
  | number fault => fault.message
  | mismatch m => m.message

/-- The name of the file that is looked for in the working directory. -/
def fileName : List Char := "c2cs.toml".toList

/-- The layer that the bytes of a file hold. -/
def ofBytes (toml : Toml.Reader) (bytes : Text.Bytes) : Except LoadError Value.Entries :=
  match Text.Utf8.decode bytes with
  | .error refusal => .error (.notText refusal)
  | .ok text =>
    match toml text with
    | .ok entries => .ok entries
    | .error .malformed => .error .notToml
    | .error (.number fault) => .error (.number fault)

/-- The bytes of a file that was asked for, or `missing` if there is none; the path that it was
looked for under comes with the error.  A user's name with a null character cannot be looked up. -/
def requested (files : Store) (homes : Homes) (path : List Char)
    (missing : List Char → LoadError) : Except LoadError Text.Bytes :=
  let p := Path.ofText path
  if (p.homeOwner?.getD []).contains '\x00' then .error (.file .embeddedNull)
  else match p.expandHome? homes with
  | none => .error .noHome
  | some p =>
    match files.readFile? p.toText with
    | .error e => .error (.file e)
    | .ok none => .error (missing p.toText)
    | .ok (some bytes) => .ok bytes

/-- The bytes of the user's file, if there is one. -/
def find (files : Store) (sources : Sources) : Except LoadError (Option Text.Bytes) :=
  if sources.given ≠ [] then
    (requested files sources.homes sources.given .missing).map some
  else if sources.inherited ≠ [] then
    let missing (_ : List Char) := LoadError.missingInherited sources.inherited
    (requested files sources.homes sources.inherited missing).map some
  else (files.readFile? fileName).mapError .file

/-- The configuration of a run. -/
def load (toml : Toml.Reader) (files : Store) (sources : Sources) :
    Except LoadError Value.Entries := do
  match ← find files sources with
  | none => return defaults
  | some bytes => (merge (← ofBytes toml bytes) defaults).mapError .mismatch

end Interop.Config
