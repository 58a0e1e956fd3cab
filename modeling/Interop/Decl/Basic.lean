import Interop.Number.Basic

/-!
# C declarations

What was extracted from one header: functions, function pointers, records, opaque pointers, opaque
types, aliases and enumerations, each kind in the order of the header.  Sizes, offsets and counts
are numbers as the model file writes them.  A location is provenance: it says where a declaration
was found and decides nothing else.
-/

set_option autoImplicit false

namespace Interop.Decl

/-- Where a declaration was found. -/
structure Location where
  kind : String
  fileName : String
  line : Number
  dateTime : String
deriving DecidableEq, Repr

/-- A C type by name, with its size and alignment in bytes; an array type has a count. -/
structure TypeUse where
  name : String
  /-- The name before any substitution. -/
  nativeName : String
  sizeOf : Number
  alignOf : Number
  arraySize : Option Number
  isSystem : Bool
deriving DecidableEq, Repr, Inhabited

/-- How a function is called.  A model file names one of the first two; a model built in another
way may name any. -/
inductive CallingConvention
  | c
  | unknown
  | other (name : String)
deriving DecidableEq, Repr

structure Parameter where
  name : String
  location : Option Location
  type : TypeUse
  isReadOnly : Bool
deriving DecidableEq, Repr

structure Function where
  name : String
  location : Option Location
  callingConvention : CallingConvention
  returnType : TypeUse
  parameters : List Parameter
deriving DecidableEq, Repr

/-- A pointer to a function; its type describes the pointer as one value. -/
structure FunctionPointer where
  name : String
  location : Option Location
  type : TypeUse
deriving DecidableEq, Repr

structure Field where
  name : String
  location : Option Location
  type : TypeUse
  offset : Number
  padding : Number
deriving DecidableEq, Repr

/-- A structure or a union.  The nested records are the anonymous and inline ones that it embeds
by value, so a record is a tree. -/
structure Record where
  name : String
  location : Option Location
  type : TypeUse
  fields : List Field
  nested : List Record
deriving Repr, Inhabited

structure OpaquePointer where
  name : String
  location : Option Location
  pointerType : TypeUse
deriving DecidableEq, Repr

/-- A type that is declared and never defined: it has no size. -/
structure OpaqueType where
  name : String
  location : Option Location
deriving DecidableEq, Repr

structure Alias where
  name : String
  location : Option Location
  underlyingType : TypeUse
deriving DecidableEq, Repr

structure EnumMember where
  name : String
  location : Option Location
  value : Number
deriving DecidableEq, Repr

structure Enumeration where
  name : String
  location : Option Location
  integerType : TypeUse
  members : List EnumMember
deriving DecidableEq, Repr

/-- The declarations of one header. -/
structure Header where
  functions : List Function
  functionPointers : List FunctionPointer
  records : List Record
  opaquePointers : List OpaquePointer
  opaqueTypes : List OpaqueType
  aliases : List Alias
  enumerations : List Enumeration
deriving Repr

namespace Header

/-- The number of declarations, members and nested records not counted. -/
def size (h : Header) : Nat :=
  h.functions.length + h.functionPointers.length + h.records.length + h.opaquePointers.length
    + h.opaqueTypes.length + h.aliases.length + h.enumerations.length

end Header

/-! ## Kinds -/

/-- The kinds of declarations. -/
inductive Kind
  | function
  | functionPointer
  | record
  | opaquePointer
  | opaqueType
  | typedef
  | enumeration
deriving DecidableEq, Repr

def Kind.name : Kind → String
  | function => "FunctionExtern"
  | functionPointer => "FunctionPointer"
  | record => "Record"
  | opaquePointer => "OpaquePointer"
  | opaqueType => "OpaqueDataType"
  | typedef => "AliasType"
  | enumeration => "Enum"

/-! ## Equality of types -/

/-- Equality of optional counts by value. -/
def countEqual : Option Number → Option Number → Bool
  | none, none => true
  | some a, some b => a.equal b
  | _, _ => false

/-- Equality of types, with numbers compared by value. -/
def TypeUse.equal (a b : TypeUse) : Bool :=
  a.name == b.name && a.nativeName == b.nativeName && a.sizeOf.equal b.sizeOf
    && a.alignOf.equal b.alignOf && countEqual a.arraySize b.arraySize && a.isSystem == b.isSystem

end Interop.Decl
