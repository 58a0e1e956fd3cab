import Interop.Binding.Basic
import Interop.Fault
import Interop.Text.Blank

/-!
# Types

A C type keeps its name, apart from the boolean types of the system headers: their size is the
compiler's business, so they get a name of their own choice.  Arrays of primitive elements can be
declared in place; a table says which spellings of an element type are primitive and what each is
called.
-/

set_option autoImplicit false

namespace Interop.Binding

/-- The stand-in for the C boolean type, unless the configuration has another. -/
def defaultBooleanTypeName : String := "CBool"

/-- The names of the C boolean type. -/
def booleanTypeNames : List String := ["bool", "_Bool"]

/-- A C type as a type of the bindings. -/
def TypeUse.ofDecl (booleanTypeName : Value) (t : Decl.TypeUse) : TypeUse :=
  { name := if t.isSystem && booleanTypeNames.contains t.name then booleanTypeName
            else .text t.name
    nativeName := t.nativeName
    sizeOf := t.sizeOf
    alignOf := t.alignOf
    count := t.arraySize }

/-! ## Elements of arrays -/

/-- The primitive types with their short spellings and the name of their class. -/
def primitives : List (String × List String × String) :=
  [("bool", [], "Boolean"), ("byte", ["uint8", "u8"], "Byte"), ("sbyte", ["int8", "i8"], "SByte"),
   ("char", [], "Char"), ("short", ["int16", "i16"], "Int16"),
   ("ushort", ["uint16", "u16"], "UInt16"), ("int", ["int32", "i32"], "Int32"),
   ("uint", ["uint32", "u32"], "UInt32"), ("long", ["int64", "i64"], "Int64"),
   ("ulong", ["uint64", "u64"], "UInt64"), ("float", ["float32", "f32"], "Single"),
   ("double", ["float64", "f64"], "Double")]

/-- A table from spellings of an element type to its keyword. -/
abbrev ElementTable := List (String × String)

/-- Every spelling of the primitive types: the keyword, the short spellings, and the class with
and without its namespace. -/
def primitiveElements : ElementTable :=
  primitives.flatMap fun (keyword, short, className) =>
    (keyword :: short ++ [className, "System." ++ className]).map fun spelling =>
      (spelling, keyword)

/-- The keyword of an element type, if arrays of it can be declared in place.  Blanks around the
name do not count. -/
def elementKeyword? (table : ElementTable) (name : List Char) : Option String :=
  table.lookup (String.ofList (Text.trim name))

/-- The keyword of an element type given by a value; a value that is no text has no name to look
up. -/
def elementKeyword (table : ElementTable) (name : Value) : Except Fault (Option String) :=
  (name.characters "strip").map (elementKeyword? table)

end Interop.Binding
