import Interop.Decl.ModelFile
import Interop.Generation.Remarks
import Interop.Generation.Request
import Interop.Json.Writer
import Interop.Session

/-!
# Runs

A run turns one request into files.  Everything that can be checked is checked before anything is
written: the policy, the paths, the model, and under the policy to abort whether every declaration
could be bound.  Then the output is written, and after it the manifest.
-/

set_option autoImplicit false

namespace Interop.Generation

open Session

/-- Why a run fails. -/
inductive RunError
  | fault (fault : Fault)
  | config (error : Config.ConfigError)
  | path (error : PathError)
  | load (error : Decl.LoadError)
  | emission (error : Source.EmissionError)
  /-- Some declarations could not be bound, and the policy is to abort. -/
  | aborted (input : List Char) (failures : List Binding.Failure)
  | file (error : FileError)
deriving Repr

/-- What a run came to. -/
structure Response where
  output : List Char
  manifest : Option (List Char)
  declaredNames : List String
  failures : List Binding.Failure
deriving Repr

/-- The names of a run, all settled: the library is called as the request says, or the
configuration, or the input file; the class as the request says, or the configuration, or the
library. -/
def settledNames (r : Request) (bindgen : Value) : Except Fault Names := do
  let library ← nameOr r.names.libraryName bindgen "library_name"
  let library := Source.orElse library (slot (Path.ofText r.input).stem)
  let className ← nameOr r.names.className bindgen "class_name"
  return ⟨library, Source.orElse className library, r.names.namespaceName⟩

/-- What a manifest says. -/
def manifestValue (libraryName className : Value) (declaredNames : List String) : Value :=
  .table
    [("library", libraryName), ("class", className),
     ("declarations", .list (declaredNames.map .text))]

/-- The text of a manifest. -/
def manifestText (libraryName className : Value) (declaredNames : List String) :
    Except Fault (List Char) := do
  return (← Json.write ⟨true, true⟩ (manifestValue libraryName className declaredNames)) ++ ['\n']

/-- Logs a remark of the run itself. -/
def say (level : Int) (message : String) (values : List Value) : Action RunError Unit :=
  modify (·.remark ⟨level, "bindgen", message, values⟩)

/-- Logs remarks in order. -/
def sayAll (remarks : List Log.Remark) : Action RunError Unit :=
  modify (remarks.foldl Session.remark)

/-- The remark on a declaration that could not be bound. -/
def failureRemark? (f : Binding.Failure) : Option Log.Remark :=
  f.message.toOption.map fun t => ⟨Log.Level.warning, "bindgen", "Could not map %s", [slot t]⟩

/-- Says which declarations could not be bound, and aborts because of them or goes on. -/
def applyPolicy (policy : Config.Policy) (input : List Char) (failures : List Binding.Failure) :
    Action RunError Unit := do
  if failures.isEmpty then return
  sayAll (failures.filterMap failureRemark?)
  match policy with
  | .abort => throw (.aborted input failures)
  | .skip =>
    say Log.Level.warning "Skipped %d declaration(s) that could not be mapped"
      [.int failures.length]

/-- Writes the files of a run. -/
def writeFiles (output : List Char) (manifest : Option (List Char)) (names : Names)
    (emitted : Source.Emitted) : Action RunError Unit := do
  change .file (Store.save output emitted.source.toList)
  say Log.Level.info "Wrote %s" [slot output]
  match manifest with
  | none => return
  | some path =>
    let text ← settle ((manifestText names.libraryName names.className
      emitted.declaredNames).mapError .fault)
    change .file (Store.save path text)
    say Log.Level.info "Wrote manifest %s" [slot path]

/-- The remark on a header that was loaded from a path. -/
def loaded (header : Decl.Header) (path : List Char) : Log.Remark :=
  ⟨Log.Level.debug, "c_model.syntax_tree", "Loaded %d declarations from %s",
    [.int header.size, slot (Path.ofText path).toText]⟩

/-- Carries out a request. -/
def run (r : Request) (config : Value) : Action RunError Response := do
  let bindgen ← settle ((Config.sectionOrEmpty config "bindgen").mapError .fault)
  let policy ← settle ((Config.policy config).mapError .config)
  let manifest ← settle ((r.manifestPath config).mapError .path)
  settle ((r.checkPaths (← get).files.cwd manifest).mapError .path)
  let header ← settle ((Decl.Header.load (← get).files r.input).mapError .load)
  sayAll [loaded header r.input]
  let names ← settle ((settledNames r bindgen).mapError .fault)
  say Log.Level.info "Generating C# bindings for %s (%d declarations)"
    [names.libraryName, .int header.size]
  sayAll (remarks config names header)
  let (lowered, emitted) ← settle ((generate config names header).mapError .emission)
  applyPolicy policy r.input lowered.failures
  writeFiles r.output manifest names emitted
  return ⟨r.output, manifest, emitted.declaredNames, lowered.failures⟩

end Interop.Generation
