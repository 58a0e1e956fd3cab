import Interop.Config.Options
import Interop.Source.Unit

/-!
# Bindings under a configuration

Lowering and emission put together: a header and a configuration give what was bound, what could
not be bound, and the source of the generated file.  Names given for this run count before those
of the configuration; a name that is empty counts as none.
-/

set_option autoImplicit false

namespace Interop.Generation

/-- The names that a run can be given. -/
structure Names where
  libraryName : Value
  className : Value
  namespaceName : Value
deriving Repr

/-- The first of a given name and the one under a key of a section that counts as something. -/
def nameOr (given : Value) (config : Value) (key : String) : Except Fault Value :=
  if given.isTruthy then .ok given else do
    return Source.orElse (← Config.getOr config key .null) .null

/-- The profile of the file for these names. -/
def profile (names : Names) (bindgen : Value) (elements : Binding.ElementTable) :
    Except Source.EmissionError Source.Profile := do
  let className ← Source.faulty (nameOr names.className bindgen "class_name")
  let namespaceName ← Source.faulty (nameOr names.namespaceName bindgen "namespace")
  let usings ← Source.faulty (Config.getOr bindgen "usings" Source.defaultUsings)
  Source.Profile.make names.libraryName className namespaceName usings elements

/-- The bindings of a header and the file that declares them. -/
def generate (config : Value) (names : Names) (header : Decl.Header) :
    Except Source.EmissionError (Binding.Lowered × Source.Emitted) := do
  let bindgen ← Source.faulty (Config.sectionOrEmpty config "bindgen")
  let options ← Source.faulty (Config.loweringOptions config)
  let lowered ← Source.faulty (Binding.lower options header)
  let p ← profile names bindgen options.elements
  return (lowered, ← Source.emit p lowered.bindings)

end Interop.Generation
