import Interop.Binding.TypeName
import Interop.Source.Pointer
import Interop.Source.Tidy

/-!
# Members of the generated class

The text of each kind of declaration, as it stands by itself.  Every struct has explicit layout:
it states its size and alignment, and every field states its offset, with its size and the padding
after it in a comment.  These are the recorded numbers, never recomputed ones.

An array field is declared in place if its element type is primitive.  Any other array gets a
wrapper, a struct next to it with one numbered field for each element.
-/

set_option autoImplicit false

namespace Interop.Source

open Binding Text

/-- Why a declaration has no text. -/
inductive EmissionError
  | fault (fault : Fault)
  | unknownConvention (name : String)
  | emptyLibraryName
deriving DecidableEq, Repr

def EmissionError.message : EmissionError → List Char
  | fault f => f.message.toList
  | unknownConvention name => Text.quoted name.toList
  | emptyLibraryName => "library_name must not be empty".toList

/-- A computation that can only be at fault, as a step of emission. -/
def faulty {α : Type} (r : Except Fault α) : Except EmissionError α := r.mapError .fault

/-- The text of a number, as a step of emission. -/
def numberText (n : Number) : Except EmissionError (List Char) :=
  n.text.mapError fun e => .fault (.number e)

/-! ## Parts of a declaration -/

/-- A type and the name that it declares. -/
def declaration (type : Value) (name : String) : Except Fault (List Char) := do
  return normalizePointers (← type.characters "strip") ++ ' ' :: name.toList

/-- The attribute that places a field. -/
def offsetAttribute (offset size padding : Number) : Except NumberFault (List Char) := do
  return "[FieldOffset(".toList ++ (← offset.text) ++ ")] // size = ".toList ++ (← size.text)
    ++ ", padding = ".toList ++ (← padding.text)

/-- A comment on a line of its own; no comment, no line. -/
def commentLine (comment : String) : List Char :=
  if comment.isEmpty then [] else comment.toList ++ ['\n']

/-- A block in braces, the body one step deeper; no body, no lines. -/
def braced (body : List Char) : List Char :=
  "\x7b\n".toList ++ (if body.isEmpty then [] else indent body ++ ['\n']) ++ ['\x7d']

/-! ## Functions -/

/-- The member of the calling convention enumeration for a convention. -/
def conventionName : Decl.CallingConvention → Except EmissionError String
  | .c => .ok "Cdecl"
  | .unknown => .ok "Winapi"
  | .other name => .error (.unknownConvention name)

def parameterText (p : Parameter) : Except EmissionError (List Char) := do
  let text ← faulty (declaration p.type.name p.name)
  return if p.isReadOnly then "[In] ".toList ++ text else text

def functionText (f : Function) : Except EmissionError (List Char) := do
  let convention ← conventionName f.convention
  let signature ← faulty (declaration f.returnType.name f.name)
  let parameters ← f.parameters.mapM parameterText
  return commentLine f.comment ++ "[DllImport(LibraryName, EntryPoint = \"".toList
    ++ f.nativeName.toList ++ "\", CallingConvention = CallingConvention.".toList
    ++ convention.toList ++ ")]\npublic static extern ".toList ++ signature
    ++ '(' :: joinWith [',', ' '] parameters ++ ");".toList

/-! ## Structs -/

/-- A struct with explicit layout around the texts of its members. -/
def structText (name comment : String) (type : TypeUse) (members : List (List Char)) :
    Except EmissionError (List Char) := do
  let body := joinMembers members
  let size ← numberText type.sizeOf
  let pack ← numberText type.alignOf
  return commentLine comment ++ "[StructLayout(LayoutKind.Explicit, Size = ".toList ++ size
    ++ ", Pack = ".toList ++ pack ++ ")]\npublic struct ".toList ++ name.toList
    ++ '\n' :: braced body

/-- The name of the wrapper of a field: made from the native name, or from the name without its
escape marks if there is no native one. -/
def wrapperName (f : Field) : String :=
  let base := if f.nativeName.isEmpty then f.name.toList.dropWhile (· == '@')
    else f.nativeName.toList
  String.ofList ('_' :: base ++ "_FixedBuffer".toList)

/-- Whether a field needs a wrapper: it is marked, or it is an array that cannot be declared in
place. -/
def needsWrapper (elements : ElementTable) (f : Field) : Except Fault Bool :=
  if f.isWrapped then .ok true
  else if f.type.isArray then (elementKeyword elements f.type.name).map (·.isNone)
  else .ok false

/-- What a field declares, without its attribute. -/
def fieldDeclaration (elements : ElementTable) (f : Field) :
    Except EmissionError (List Char) := do
  if ← faulty (needsWrapper elements f) then
    faulty (declaration (.text (wrapperName f)) f.name)
  else match f.type.count with
    | some n =>
      let keyword ← faulty (elementKeyword elements f.type.name)
      return "fixed ".toList ++ (keyword.getD "None").toList ++ ' ' :: f.name.toList
        ++ '[' :: (← numberText n) ++ [']']
    | none => faulty (declaration f.type.name f.name)

def fieldText (elements : ElementTable) (f : Field) : Except EmissionError (List Char) := do
  let declared ← fieldDeclaration elements f
  let placement ←
    faulty ((offsetAttribute f.offset f.type.sizeOf f.padding).mapError .number)
  return placement ++ "\npublic ".toList ++ declared ++ [';']

/-- The number of elements of an array and the size of one, which is the size of the array
divided and rounded down. -/
def elementLayout (t : TypeUse) : Except Fault (Nat × Number) := do
  let count := match t.count with
    | some n => if n.isZero then 0 else n
    | none => 0
  let size ← if count.isZero then pure 0 else (t.sizeOf.floorDiv count).mapError .number
  match count with
  | .int n => return (n.toNat, size)
  | .double _ => throw (.notACount (Value.number count).kindName)

/-- The field of a wrapper for one element. -/
def slot (t : TypeUse) (size : Number) (index : Nat) : Except Fault Field := do
  return {
    name := "_" ++ Nat.repr index
    nativeName := ""
    comment := ""
    type := { t with sizeOf := size, count := none }
    offset := ← ((Number.int index).mul size).mapError .number
    padding := 0
    isWrapped := false }

/-- The struct that stands for an array that cannot be declared in place. -/
def wrapperText (elements : ElementTable) (f : Field) : Except EmissionError (List Char) := do
  let (count, size) ← faulty (elementLayout f.type)
  let members ← (List.range count).mapM fun index => do
    fieldText elements (← faulty (slot f.type size index))
  structText (wrapperName f) "" f.type members

/-- The wrappers of those fields that need one. -/
def wrapperTexts (elements : ElementTable) : List Field → Except EmissionError (List (List Char))
  | [] => .ok []
  | f :: rest => do
    if ← faulty (needsWrapper elements f) then
      return (← wrapperText elements f) :: (← wrapperTexts elements rest)
    else wrapperTexts elements rest

mutual

/-- A struct: its fields, then the wrappers of its fields, then the structs nested in it. -/
def Struct.text (elements : ElementTable) : Struct → Except EmissionError (List Char)
  | ⟨name, comment, type, fields, nested⟩ => do
    let fieldTexts ← fields.mapM (fieldText elements)
    let wrappers ← wrapperTexts elements fields
    let inner ← nestedTexts elements nested
    structText name comment type (fieldTexts ++ wrappers ++ inner)

def nestedTexts (elements : ElementTable) : List Struct → Except EmissionError (List (List Char))
  | [] => .ok []
  | s :: rest => do return (← Struct.text elements s) :: (← nestedTexts elements rest)

end

/-- The only field of the struct around a function pointer. -/
def pointerField (type : TypeUse) : Field :=
  { name := "Pointer", nativeName := "", comment := "", type, offset := 0, padding := 0
    isWrapped := false }

def functionPointerText (elements : ElementTable) (p : FunctionPointer) :
    Except EmissionError (List Char) := do
  structText p.name p.comment p.type [← fieldText elements (pointerField p.type)]

def opaqueText (s : OpaqueStruct) : List Char :=
  commentLine s.comment ++ "[StructLayout(LayoutKind.Sequential)]\npublic struct ".toList
    ++ s.name.toList ++ '\n' :: braced []

/-! ## Enumerations -/

def enumMemberText (m : EnumMember) : Except EmissionError (List Char) := do
  return "    ".toList ++ m.name.toList ++ " = ".toList ++ (← numberText m.value) ++ ",\n".toList

def enumText (e : Enumeration) : Except EmissionError (List Char) := do
  let type ← faulty e.integerType.name.shown
  let members ← e.members.mapM enumMemberText
  return commentLine e.comment ++ "public enum ".toList ++ e.name.toList ++ " : ".toList ++ type
    ++ "\n\x7b\n".toList ++ members.flatten ++ ['\x7d']

end Interop.Source
