import Interop.Files.Path
import Interop.Generation.Bindings

/-!
# Requests

A request names the model to read, the file to write and, if there is to be one, the manifest that
lists what was declared.  None of the files that a run writes may be the model, and the manifest
may not be the output; paths are compared by the places they lead to.
-/

set_option autoImplicit false

namespace Interop.Generation

structure Request where
  input : List Char
  output : List Char
  names : Names
  /-- The path of the manifest, if the request gives one. -/
  manifest : Option (List Char)
deriving Repr

/-- Why the paths of a request cannot be used. -/
inductive PathError
  | fault (fault : Fault)
  /-- The output has no name that the one of the manifest could be made from. -/
  | emptyName (path : List Char)
  | embeddedNull
  /-- Where a path has to be there is none. -/
  | notGiven
  | outputOverInput (output : List Char)
  | manifestOverInput (manifest : List Char)
  | manifestOverOutput (manifest : List Char)
deriving DecidableEq, Repr

def PathError.message : PathError → List Char
  | fault f => f.message.toList
  | emptyName path => "PosixPath(".toList ++ Text.quoted path ++ ") has an empty name".toList
  | embeddedNull => "embedded null byte".toList
  | notGiven => "expected str, bytes or os.PathLike object, not list".toList
  | outputOverInput output =>
    "output file ".toList ++ output ++ " would overwrite the input model".toList
  | manifestOverInput manifest =>
    "manifest ".toList ++ manifest ++ " would overwrite the input model".toList
  | manifestOverOutput manifest =>
    "manifest ".toList ++ manifest ++ " would overwrite the output file".toList

def manifestSuffix : List Char := ".manifest.json".toList

/-- The manifest next to an output file. -/
def manifestBeside (output : List Char) : Except PathError (List Char) :=
  let p := Path.ofText output
  match p.withName? (p.stem ++ manifestSuffix) with
  | some manifest => .ok manifest.toText
  | none => .error (.emptyName p.toText)

/-- The path of the manifest: the one that was asked for, or the one next to the output if the
configuration wants one. -/
def Request.manifestPath (r : Request) (config : Value) :
    Except PathError (Option (List Char)) :=
  match r.manifest with
  | some path => .ok (some path)
  | none => do
    let bindgen ← (Config.sectionOrEmpty config "bindgen").mapError .fault
    let wanted ← (Config.getOr bindgen "manifest" (.bool false)).mapError .fault
    if wanted.isTruthy then return some (← manifestBeside r.output) else return none

/-- The place that a path text leads to. -/
def placeOf (cwd : Place) (path : List Char) : Except PathError Place :=
  if path.contains '\x00' then .error .embeddedNull else .ok ((Path.ofText path).resolve cwd)

/-- Checks that no file of a run is written over another. -/
def Request.checkPaths (r : Request) (cwd : Place) (manifest : Option (List Char)) :
    Except PathError Unit := do
  let input ← placeOf cwd r.input
  let output ← placeOf cwd r.output
  if output = input then throw (.outputOverInput r.output)
  match manifest with
  | none => return
  | some path =>
    let place ← placeOf cwd path
    if place = input then throw (.manifestOverInput path)
    if place = output then throw (.manifestOverOutput path)

end Interop.Generation
