import Interop.Decl.Basic
import Interop.Value.Basic

/-!
# Bindings

What a generated file declares: extern functions, structs with explicit layout, opaque structs and
enumerations.  Layout numbers are the recorded ones.  The name of a type is a value, since the
stand-in for the C boolean type comes from the configuration as it is; every other type name is a
text.
-/

set_option autoImplicit false

namespace Interop.Binding

structure TypeUse where
  name : Value
  /-- The name in the header. -/
  nativeName : String
  sizeOf : Number
  alignOf : Number
  /-- The number of elements, for an array. -/
  count : Option Number
deriving Repr, Inhabited

def TypeUse.isArray (t : TypeUse) : Bool := t.count.isSome

structure Parameter where
  name : String
  comment : String
  type : TypeUse
  isReadOnly : Bool
deriving Repr

structure Function where
  name : String
  /-- The name of the entry point. -/
  nativeName : String
  comment : String
  convention : Decl.CallingConvention
  returnType : TypeUse
  parameters : List Parameter
deriving Repr

structure FunctionPointer where
  name : String
  comment : String
  type : TypeUse
deriving Repr

structure Field where
  name : String
  /-- The name in the header; empty for a field that is not from there. -/
  nativeName : String
  comment : String
  type : TypeUse
  offset : Number
  padding : Number
  /-- An array whose elements cannot be declared in place; it gets a struct of its own. -/
  isWrapped : Bool
deriving Repr

structure Struct where
  name : String
  comment : String
  type : TypeUse
  fields : List Field
  nested : List Struct
deriving Repr, Inhabited

structure OpaqueStruct where
  name : String
  comment : String
deriving Repr

structure EnumMember where
  name : String
  comment : String
  value : Number
deriving Repr

structure Enumeration where
  name : String
  comment : String
  integerType : TypeUse
  members : List EnumMember
deriving Repr

/-- The declarations of one generated file. -/
structure Bindings where
  functions : List Function
  functionPointers : List FunctionPointer
  structs : List Struct
  opaqueStructs : List OpaqueStruct
  enumerations : List Enumeration
deriving Repr

namespace Bindings

/-- The names of all top-level declarations, in the order of the generated file. -/
def names (b : Bindings) : List String :=
  b.functions.map (·.name) ++ b.functionPointers.map (·.name) ++ b.structs.map (·.name)
    ++ b.opaqueStructs.map (·.name) ++ b.enumerations.map (·.name)

end Bindings

end Interop.Binding
