import Interop.Source.Member

/-!
# The generated file

One file holds one class with all bindings of a library, inside a namespace if one is asked for.
The members come in a fixed order of kinds, within a kind in the order of the bindings, with one
empty line between members.
-/

set_option autoImplicit false

namespace Interop.Source

open Binding Text

/-- What the file is called and what it uses.  The names may come from a configuration and are
values; none of them needs to be a text. -/
structure Profile where
  libraryName : Value
  className : Value
  /-- Null for no namespace. -/
  namespaceName : Value
  usings : List Value
  elements : ElementTable
deriving Repr

/-- The namespaces that a file uses unless the configuration names others. -/
def defaultUsings : Value :=
  .list [.text "System", .text "System.Runtime.InteropServices", .text "C2CS"]

/-- The elements of a value that is a sequence: the items of a list, the characters of a text or
the keys of a table. -/
def sequenceItems : Value → Except Fault (List Value)
  | .list items => .ok items
  | .text s => .ok (s.toList.map fun c => .text (String.singleton c))
  | .table entries => .ok (entries.map fun e => .text e.1)
  | v => .error (.notASequence v.kindName)

/-- The first of two values, unless it counts as nothing. -/
def orElse (v alternative : Value) : Value := if v.isTruthy then v else alternative

/-- A profile.  A library needs a name; the class takes it if it has none of its own. -/
def Profile.make (libraryName className namespaceName usings : Value) (elements : ElementTable) :
    Except EmissionError Profile := do
  if !libraryName.isTruthy then throw .emptyLibraryName
  return {
    libraryName
    className := orElse className libraryName
    namespaceName := orElse namespaceName .null
    usings := ← faulty (sequenceItems usings)
    elements }

/-! ## Text -/

/-- The texts of all members, in order. -/
def memberTexts (elements : ElementTable) (b : Bindings) :
    Except EmissionError (List (List Char)) := do
  let functions ← b.functions.mapM functionText
  let functionPointers ← b.functionPointers.mapM (functionPointerText elements)
  let structs ← nestedTexts elements b.structs
  let enumerations ← b.enumerations.mapM enumText
  return functions ++ functionPointers ++ structs ++ b.opaqueStructs.map opaqueText ++ enumerations

/-- The class around its members. -/
def classText (p : Profile) (members : List (List Char)) : Except EmissionError (List Char) := do
  let className ← faulty p.className.shown
  let libraryName ← faulty p.libraryName.shown
  let body := joinMembers members
  return "public static unsafe partial class ".toList ++ className
    ++ "\n\x7b\n    private const string LibraryName = \"".toList ++ libraryName
    ++ "\";\n\n".toList ++ (if body.isEmpty then [] else indent body ++ ['\n']) ++ ['\x7d']

/-- The lines of the comment at the head of the file. -/
def banner (libraryName : List Char) : List (List Char) :=
  let rule :=
    "//-------------------------------------------------------------------------------------".toList
  [rule,
   "// <auto-generated>".toList,
   "//     This code was generated by c2cs from the C declarations of ".toList ++ libraryName
     ++ ['.'],
   "//".toList,
   "//     Changes to this file may cause incorrect behavior and will be lost if".toList,
   "//     the code is regenerated.".toList,
   "// </auto-generated>".toList,
   rule]

def usingLine (v : Value) : Except EmissionError (List Char) := do
  return "using ".toList ++ (← faulty v.shown) ++ ";\n".toList

/-- The file around its class, before its blank lines and line ends are tidied. -/
def fileText (p : Profile) (classText : List Char) : Except EmissionError (List Char) := do
  let libraryName ← faulty p.libraryName.shown
  let usings ← p.usings.mapM usingLine
  let head := joinLines (banner libraryName)
    ++ "\n\n#nullable enable\n#pragma warning disable 1591\n\n".toList ++ usings.flatten ++ ['\n']
  if p.namespaceName.isTruthy then
    return head ++ "namespace ".toList ++ (← faulty p.namespaceName.shown) ++ "\n\x7b\n".toList
      ++ indent classText ++ "\n\x7d\n".toList
  else return head ++ classText ++ ['\n']

/-- The generated file. -/
structure Emitted where
  source : String
  declaredNames : List String
deriving DecidableEq, Repr

def emit (p : Profile) (b : Bindings) : Except EmissionError Emitted := do
  let members ← memberTexts p.elements b
  let text ← fileText p (← classText p members)
  return { source := String.ofList (tidy text), declaredNames := b.names }

end Interop.Source
