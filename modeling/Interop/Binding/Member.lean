import Interop.Binding.Basic

/-!
# Members of the generated class

The declarations of a file in one list, in the order in which they stand in the file: functions,
function pointers, structs, opaque structs and enumerations.
-/

set_option autoImplicit false

namespace Interop.Binding

/-- A top-level declaration of any kind. -/
inductive Member
  | function (f : Function)
  | functionPointer (p : FunctionPointer)
  | struct (s : Struct)
  | opaqueStruct (s : OpaqueStruct)
  | enumeration (e : Enumeration)
deriving Repr

def Member.name : Member → String
  | function f => f.name
  | functionPointer p => p.name
  | struct s => s.name
  | opaqueStruct s => s.name
  | enumeration e => e.name

namespace Bindings

/-- All declarations, in the order of the file. -/
def members (b : Bindings) : List Member :=
  b.functions.map .function ++ b.functionPointers.map .functionPointer ++ b.structs.map .struct
    ++ b.opaqueStructs.map .opaqueStruct ++ b.enumerations.map .enumeration

theorem names_eq (b : Bindings) : b.names = b.members.map Member.name := by
  simp [names, members, Function.comp_def, Member.name]

end Bindings

end Interop.Binding
