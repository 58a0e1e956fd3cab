import Interop.Decl.Basic
import Interop.Text.Blank
import Interop.Text.Lines

/-!
# Descriptions of C declarations

Short one-line forms for diagnostics, and the comment that records where a declaration was found.
A description of a declaration says what it is called and the one thing that tells it apart, such
as the parameter list of a function.
-/

set_option autoImplicit false

namespace Interop.Decl

/-- The comment for a location; it does not end in blanks. -/
def Location.comment (l : Location) : Except NumberFault (List Char) := do
  let line ← l.line.text
  return Text.dropWhileEnd Text.isBlank
    ("// ".toList ++ l.kind.toList ++ " @ ".toList ++ l.fileName.toList ++ ':' :: line
      ++ ' ' :: l.dateTime.toList)

/-- The comment for a location that may be missing. -/
def locationComment : Option Location → Except NumberFault String
  | none => .ok ""
  | some l => return String.ofList (← l.comment)

/-- A word for what is described, with a body in parentheses. -/
def labelled (label : String) (body : List Char) : String :=
  label ++ "(" ++ String.ofList body ++ ")"

def TypeUse.describe (t : TypeUse) : Except NumberFault String :=
  match t.arraySize with
  | none => .ok (labelled "CType" t.name.toList)
  | some n => do return labelled "CType" (t.name.toList ++ '[' :: (← n.text) ++ [']'])

def Parameter.describe (p : Parameter) : String :=
  labelled "CFunctionExternParameter" (p.name.toList ++ ": ".toList ++ p.type.name.toList)

def Function.describe (f : Function) : String :=
  let parameters := f.parameters.map fun p =>
    Text.trim (p.type.name.toList ++ ' ' :: p.name.toList)
  labelled "CFunctionExtern"
    (f.returnType.name.toList ++ ' ' :: f.name.toList
      ++ '(' :: Text.joinWith [',', ' '] parameters ++ [')'])

def FunctionPointer.describe (p : FunctionPointer) : String :=
  labelled "CFunctionPointer" p.name.toList

def Field.describe (f : Field) : Except NumberFault String := do
  return labelled "CRecordField" (f.name.toList ++ " @ ".toList ++ (← f.offset.text))

def Record.describe (r : Record) : String := labelled "CRecord" r.name.toList

def OpaquePointer.describe (p : OpaquePointer) : String := labelled "COpaquePointer" p.name.toList

def OpaqueType.describe (t : OpaqueType) : String := labelled "COpaqueDataType" t.name.toList

def Alias.describe (a : Alias) : String :=
  labelled "CAliasType" (a.name.toList ++ " = ".toList ++ a.underlyingType.name.toList)

def EnumMember.describe (m : EnumMember) : Except NumberFault String := do
  return labelled "CEnumValue" (m.name.toList ++ " = ".toList ++ (← m.value.text))

def Enumeration.describe (e : Enumeration) : String := labelled "CEnum" e.name.toList

/-! ## All parts of a header

A declaration stands before its types and its members, which follow in the order of the
declaration's parts. -/

def Field.descriptions (f : Field) : Except NumberFault (List String) := do
  return [← f.describe, ← f.type.describe]

def Parameter.descriptions (p : Parameter) : Except NumberFault (List String) := do
  return [p.describe, ← p.type.describe]

mutual

def Record.descriptions : Record → Except NumberFault (List String)
  | ⟨name, location, type, fields, nested⟩ => do
    let self := Record.describe ⟨name, location, type, fields, nested⟩
    let parts ← fields.mapM Field.descriptions
    return self :: (← type.describe) :: parts.flatten ++ (← nestedDescriptions nested)

def nestedDescriptions : List Record → Except NumberFault (List String)
  | [] => .ok []
  | r :: rest => do return (← r.descriptions) ++ (← nestedDescriptions rest)

end

def Function.descriptions (f : Function) : Except NumberFault (List String) := do
  let parts ← f.parameters.mapM Parameter.descriptions
  return f.describe :: (← f.returnType.describe) :: parts.flatten

def Enumeration.descriptions (e : Enumeration) : Except NumberFault (List String) := do
  return e.describe :: (← e.integerType.describe) :: (← e.members.mapM EnumMember.describe)

/-- The descriptions of everything in a header. -/
def Header.descriptions (h : Header) : Except NumberFault (List String) := do
  let functions ← h.functions.mapM Function.descriptions
  let functionPointers ← h.functionPointers.mapM fun p => do
    return [p.describe, ← p.type.describe]
  let records ← nestedDescriptions h.records
  let opaquePointers ← h.opaquePointers.mapM fun p => do
    return [p.describe, ← p.pointerType.describe]
  let opaqueTypes := h.opaqueTypes.map OpaqueType.describe
  let aliases ← h.aliases.mapM fun a => do return [a.describe, ← a.underlyingType.describe]
  let enumerations ← h.enumerations.mapM Enumeration.descriptions
  return functions.flatten ++ functionPointers.flatten ++ records ++ opaquePointers.flatten
    ++ opaqueTypes ++ aliases.flatten ++ enumerations.flatten

end Interop.Decl
