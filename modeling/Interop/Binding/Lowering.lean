import Interop.Binding.Identifier
import Interop.Binding.TypeName
import Interop.Decl.Describe

/-!
# From declarations to bindings

Every top-level declaration is lowered by itself: what becomes of it depends on it and on the
options alone.  A declaration that cannot be bound is refused, for a reason that names the part of
it that is at fault (`Refusal`), and the others go on.  A fault in a number or in the configured
name of the boolean type ends the whole lowering.

Aliases and opaque pointers become structs with a single field, so that two typedefs of the same
type stay apart.
-/

set_option autoImplicit false

namespace Interop.Binding

/-- What lowering can be told. -/
structure Options where
  reserved : List String
  elements : ElementTable
  booleanTypeName : Value
  validateLayout : Bool
  /-- The number of workers; at least one, and without influence on the result. -/
  workers : Int
deriving Repr

def Options.default : Options :=
  { reserved := reservedWords
    elements := primitiveElements
    booleanTypeName := .text defaultBooleanTypeName
    validateLayout := false
    workers := 1 }

/-! ## Refusals -/

/-- Why a declaration cannot be bound. -/
inductive Reason
  | unsupportedConvention (convention : String)
  /-- The fields and their padding add up to another size than that of the record. -/
  | layoutMismatch (covered size : Number)
deriving DecidableEq, Repr

/-- A reason, with the function or record that it is about. -/
structure Refusal where
  reason : Reason
  name : String
  location : Option Decl.Location
deriving DecidableEq, Repr

/-- The text of an error about a part of a declaration: what is wrong, and where. -/
def located (text : List Char) (location : Option Decl.Location) :
    Except NumberFault (List Char) :=
  match location with
  | none => .ok text
  | some l => do
    return text ++ ' ' :: '(' :: l.fileName.toList ++ ':' :: (← l.line.text) ++ [')']

def Refusal.reasonText (r : Refusal) : Except NumberFault (List Char) :=
  match r.reason with
  | .unsupportedConvention convention =>
    .ok ("unsupported calling convention ".toList ++ Text.quoted convention.toList
      ++ " for function ".toList ++ r.name.toList)
  | .layoutMismatch covered size => do
    return "fields of ".toList ++ r.name.toList ++ " cover ".toList ++ (← covered.text)
      ++ " bytes but the record is ".toList ++ (← size.text) ++ " bytes".toList

def Refusal.message (r : Refusal) : Except NumberFault (List Char) := do
  located (← r.reasonText) r.location

/-- A top-level declaration that was refused. -/
structure Failure where
  kind : Decl.Kind
  name : String
  location : Option Decl.Location
  refusal : Refusal
deriving DecidableEq, Repr

def Failure.message (f : Failure) : Except NumberFault (List Char) := do
  return f.kind.name.toList ++ ' ' :: f.name.toList ++ ':' :: ' ' :: (← f.refusal.message)

/-- Why lowering a declaration gives nothing. -/
inductive LoweringError
  | refused (refusal : Refusal)
  | fault (fault : Fault)
deriving DecidableEq, Repr

/-- A computation that can only be at fault, as a step of lowering. -/
def faulty {α : Type} (r : Except Fault α) : Except LoweringError α := r.mapError .fault

/-- A computation on numbers, as a step of lowering. -/
def numeric {α : Type} (r : Except NumberFault α) : Except LoweringError α :=
  r.mapError fun e => .fault (.number e)

/-! ## Functions -/

/-- The parameters of a function, given the names already handed out in it. -/
def lowerParameters (o : Options) (taken : List String) :
    List Decl.Parameter → Except LoweringError (List Parameter)
  | [] => .ok []
  | p :: rest => do
    let name ← numeric (freeName p.name taken)
    let comment ← numeric (Decl.locationComment p.location)
    let lowered : Parameter :=
      { name := escapeReserved o.reserved name
        comment
        type := .ofDecl o.booleanTypeName p.type
        isReadOnly := p.isReadOnly }
    return lowered :: (← lowerParameters o (taken ++ [name]) rest)

def lowerFunction (o : Options) (f : Decl.Function) : Except LoweringError Function := do
  if let .other convention := f.callingConvention then
    throw (.refused ⟨.unsupportedConvention convention, f.name, f.location⟩)
  return {
    name := escapeReserved o.reserved f.name
    nativeName := f.name
    comment := ← numeric (Decl.locationComment f.location)
    convention := f.callingConvention
    returnType := .ofDecl o.booleanTypeName f.returnType
    parameters := ← lowerParameters o [] f.parameters }

def lowerFunctionPointer (o : Options) (p : Decl.FunctionPointer) :
    Except LoweringError FunctionPointer := do
  return {
    name := p.name
    comment := ← numeric (Decl.locationComment p.location)
    type := .ofDecl o.booleanTypeName p.type }

/-! ## Records -/

/-- Whether each number is below the next. -/
def strictlyIncreasing : List Number → Bool
  | a :: b :: rest => !b.lessOrEqual a && strictlyIncreasing (b :: rest)
  | _ => true

/-- The bytes that fields cover, padding included. -/
def coveredBytes (fields : List Decl.Field) : Except NumberFault Number := do
  Number.sum (← fields.mapM fun f => f.type.sizeOf.add f.padding)

/-- Checks that the fields of a record cover it exactly.  Unions and overlapping bit fields have
no increasing offsets, and the sum says nothing about them. -/
def checkLayout (r : Decl.Record) : Except LoweringError Unit := do
  if r.fields.isEmpty || !strictlyIncreasing (r.fields.map (·.offset)) then return
  let covered ← numeric (coveredBytes r.fields)
  if !covered.equal r.type.sizeOf then
    let refusal : Refusal := ⟨.layoutMismatch covered r.type.sizeOf, r.name, r.location⟩
    -- Byte counts that cannot be written are a fault of their own.
    let _ ← numeric refusal.reasonText
    throw (.refused refusal)

def lowerField (o : Options) (f : Decl.Field) : Except LoweringError Field := do
  let type := TypeUse.ofDecl o.booleanTypeName f.type
  let isWrapped ← if type.isArray then
      (faulty (elementKeyword o.elements type.name)).map (·.isNone)
    else pure false
  return {
    name := escapeReserved o.reserved f.name
    nativeName := f.name
    comment := ← numeric (Decl.locationComment f.location)
    type
    offset := f.offset
    padding := f.padding
    isWrapped }

mutual

def lowerRecord (o : Options) : Decl.Record → Except LoweringError Struct
  | ⟨name, location, type, fields, nested⟩ => do
    if o.validateLayout then checkLayout ⟨name, location, type, fields, nested⟩
    return {
      name
      comment := ← numeric (Decl.locationComment location)
      type := .ofDecl o.booleanTypeName type
      fields := ← fields.mapM (lowerField o)
      nested := ← lowerNested o nested }

def lowerNested (o : Options) : List Decl.Record → Except LoweringError (List Struct)
  | [] => .ok []
  | r :: rest => do return (← lowerRecord o r) :: (← lowerNested o rest)

end

/-- A struct around a single field that starts at its beginning. -/
def singleField (o : Options) (name : String) (location : Option Decl.Location)
    (fieldName : String) (type : Decl.TypeUse) : Except LoweringError Struct := do
  let comment ← numeric (Decl.locationComment location)
  let type := TypeUse.ofDecl o.booleanTypeName type
  let field : Field :=
    { name := fieldName, nativeName := "", comment, type, offset := 0, padding := 0
      isWrapped := false }
  return { name, comment, type, fields := [field], nested := [] }

def lowerAlias (o : Options) (a : Decl.Alias) : Except LoweringError Struct :=
  singleField o a.name a.location "Data" a.underlyingType

def lowerOpaquePointer (o : Options) (p : Decl.OpaquePointer) : Except LoweringError Struct :=
  singleField o p.name p.location "Pointer" p.pointerType

def lowerOpaqueType (t : Decl.OpaqueType) : Except LoweringError OpaqueStruct := do
  return { name := t.name, comment := ← numeric (Decl.locationComment t.location) }

/-! ## Enumerations -/

def lowerEnumMember (m : Decl.EnumMember) : Except LoweringError EnumMember := do
  return {
    name := m.name
    comment := ← numeric (Decl.locationComment m.location)
    value := m.value }

def lowerEnumeration (o : Options) (e : Decl.Enumeration) :
    Except LoweringError Enumeration := do
  return {
    name := e.name
    comment := ← numeric (Decl.locationComment e.location)
    integerType := .ofDecl o.booleanTypeName e.integerType
    members := ← e.members.mapM lowerEnumMember }

/-! ## Whole headers -/

/-- What becomes of a declaration: it is bound or it is refused, unless there is a fault. -/
abbrev Outcome (β : Type) := Except Fault (Except Failure β)

/-- The outcome of a top-level declaration of a kind, a name and a location. -/
def outcome {β : Type} (kind : Decl.Kind) (name : String) (location : Option Decl.Location) :
    Except LoweringError β → Outcome β
  | .ok b => .ok (.ok b)
  | .error (.refused refusal) => .ok (.error ⟨kind, name, location, refusal⟩)
  | .error (.fault fault) => .error fault

namespace Outcome

def ofFunction (o : Options) (f : Decl.Function) : Outcome Function :=
  outcome .function f.name f.location (lowerFunction o f)

def ofFunctionPointer (o : Options) (p : Decl.FunctionPointer) : Outcome FunctionPointer :=
  outcome .functionPointer p.name p.location (lowerFunctionPointer o p)

def ofRecord (o : Options) (r : Decl.Record) : Outcome Struct :=
  outcome .record r.name r.location (lowerRecord o r)

def ofAlias (o : Options) (a : Decl.Alias) : Outcome Struct :=
  outcome .typedef a.name a.location (lowerAlias o a)

def ofOpaquePointer (o : Options) (p : Decl.OpaquePointer) : Outcome Struct :=
  outcome .opaquePointer p.name p.location (lowerOpaquePointer o p)

def ofOpaqueType (t : Decl.OpaqueType) : Outcome OpaqueStruct :=
  outcome .opaqueType t.name t.location (lowerOpaqueType t)

def ofEnumeration (o : Options) (e : Decl.Enumeration) : Outcome Enumeration :=
  outcome .enumeration e.name e.location (lowerEnumeration o e)

/-- The bound declarations and the failures of a section, in order; the first fault ends it. -/
def collect {β : Type} : List (Outcome β) → Except Fault (List β × List Failure)
  | [] => .ok ([], [])
  | .error fault :: _ => .error fault
  | .ok (.ok b) :: rest => do
    let (bound, failures) ← collect rest
    return (b :: bound, failures)
  | .ok (.error failure) :: rest => do
    let (bound, failures) ← collect rest
    return (bound, failure :: failures)

/-- The failures of a section before its first fault, and whether there is none. -/
def failuresUntilFault {β : Type} : List (Outcome β) → List Failure × Bool
  | [] => ([], true)
  | .error _ :: _ => ([], false)
  | .ok (.ok _) :: rest => failuresUntilFault rest
  | .ok (.error failure) :: rest =>
    let (failures, complete) := failuresUntilFault rest
    (failure :: failures, complete)

end Outcome

/-- The bindings of a header, and what could not be bound. -/
structure Lowered where
  bindings : Bindings
  failures : List Failure
deriving Repr

def Lowered.anyFailed (l : Lowered) : Bool := !l.failures.isEmpty

/-- Lowers all declarations of a header.  Structs come from the records, then the aliases, then
the opaque pointers; failures come in the order of the seven sections. -/
def lower (o : Options) (h : Decl.Header) : Except Fault Lowered := do
  let (functions, f₁) ← Outcome.collect (h.functions.map (Outcome.ofFunction o))
  let (functionPointers, f₂) ←
    Outcome.collect (h.functionPointers.map (Outcome.ofFunctionPointer o))
  let (records, f₃) ← Outcome.collect (h.records.map (Outcome.ofRecord o))
  let (aliases, f₄) ← Outcome.collect (h.aliases.map (Outcome.ofAlias o))
  let (opaquePointers, f₅) ← Outcome.collect (h.opaquePointers.map (Outcome.ofOpaquePointer o))
  let (opaqueStructs, f₆) ← Outcome.collect (h.opaqueTypes.map Outcome.ofOpaqueType)
  let (enumerations, f₇) ← Outcome.collect (h.enumerations.map (Outcome.ofEnumeration o))
  return {
    bindings :=
      { functions, functionPointers
        structs := records ++ aliases ++ opaquePointers
        opaqueStructs, enumerations }
    failures := f₁ ++ f₂ ++ f₃ ++ f₄ ++ f₅ ++ f₆ ++ f₇ }

/-- The failures of a header up to its first fault. -/
def failuresUntilFault (o : Options) (h : Decl.Header) : List Failure :=
  let sections : List (List Failure × Bool) :=
    [Outcome.failuresUntilFault (h.functions.map (Outcome.ofFunction o)),
     Outcome.failuresUntilFault (h.functionPointers.map (Outcome.ofFunctionPointer o)),
     Outcome.failuresUntilFault (h.records.map (Outcome.ofRecord o)),
     Outcome.failuresUntilFault (h.aliases.map (Outcome.ofAlias o)),
     Outcome.failuresUntilFault (h.opaquePointers.map (Outcome.ofOpaquePointer o)),
     Outcome.failuresUntilFault (h.opaqueTypes.map Outcome.ofOpaqueType),
     Outcome.failuresUntilFault (h.enumerations.map (Outcome.ofEnumeration o))]
  let complete := sections.takeWhile (·.2)
  (complete ++ (sections.drop complete.length).take 1).flatMap (·.1)

end Interop.Binding
