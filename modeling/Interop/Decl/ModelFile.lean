import Interop.Decl.Document
import Interop.Files.Store
import Interop.Json.Reader

/-!
# Model files

A header is described by a file with JSON in UTF-8.  Reading one goes through four gates: there is
a file, its bytes are a text, the text is JSON, and the JSON is a description of a header.  Line
breaks of any kind count as newlines before the text is read, so a position in a message counts
each as one character.
-/

set_option autoImplicit false

namespace Interop.Decl

/-- Why a model file cannot be loaded. -/
inductive LoadError
  /-- There is no file. -/
  | missing (path : List Char)
  | file (error : FileError)
  | notText (refusal : Text.Utf8.Refusal)
  /-- The text is no JSON. -/
  | notJson (path : List Char) (description : String)
  | number (fault : NumberFault)
  /-- A string of the text is not made of characters; what becomes of such a file is not
  described. -/
  | halfPair
  | document (error : DocumentError)
deriving Repr

/-- The header that a text describes; `path` is where it came from. -/
def Header.ofText (path text : List Char) : Except LoadError Header :=
  match Json.read text with
  | .ok v => (Header.ofValue v).mapError .document
  | .error (.malformed cause rest) => .error (.notJson path (Json.describe text cause rest))
  | .error (.number fault) => .error (.number fault)
  | .error .halfPair => .error .halfPair

/-- The header that the bytes of a file describe. -/
def Header.ofBytes (path : List Char) (bytes : Text.Bytes) : Except LoadError Header :=
  match Text.Utf8.decode bytes with
  | .error refusal => .error (.notText refusal)
  | .ok text => Header.ofText path (Text.universalNewlines text)

/-- The header that the file at a path describes. -/
def Header.load (files : Store) (path : List Char) : Except LoadError Header := do
  let path := (Path.ofText path).toText
  match ← (files.readFile? path).mapError .file with
  | none => throw (.missing path)
  | some bytes => Header.ofBytes path bytes

/-- The text of an error; the one of a violation may itself be at fault. -/
def LoadError.message : LoadError → Except NumberFault String
  | missing path => .ok ("Could not find C model file " ++ String.ofList path)
  | file error => .ok (String.ofList error.message)
  | notText refusal => .ok refusal.message
  | notJson path description =>
    .ok (String.ofList path ++ " is not valid JSON: " ++ description)
  | number fault => .ok fault.message
  | halfPair => .ok "half of a surrogate pair"
  | document (.invalid v) => v.message
  | document (.gap (.missing key)) | document (.gap (.wrongKind key)) => .ok key

end Interop.Decl
