/-!
# Kinds

A field of a template names a text, and from a text it may go on to what belongs to that text: its
kind, the members of its kind, what these are themselves.  Every thing on the way has a kind, and a
kind is a thing as well.  Here are the kinds that can be met, what each is called and which kinds
it takes its members from.
-/

set_option autoImplicit false

namespace Interop.Template

/-- A kind of thing that a field can get to. -/
inductive Kind
  | text
  /-- What all things have in common. -/
  | anything
  | kind
  /-- An operation together with the thing that it is for. -/
  | operation
  /-- A hook together with the thing that it is for. -/
  | boundHook
  /-- An operation for any thing of a kind. -/
  | method
  | hook
  /-- An operation for a kind itself. -/
  | kindMethod
  | property
  | field
  /-- An operation that is for nothing in particular. -/
  | loose
  | nothing
  | integer
  | truth
  | tuple
  /-- The members of a kind by their names. -/
  | members
  /-- A kind of containers together with what they contain. -/
  | parameterised
deriving DecidableEq, Repr

namespace Kind

/-- The name of a kind among the kinds of its module. -/
def name : Kind → String
  | text => "str"
  | anything => "object"
  | kind => "type"
  | operation => "builtin_function_or_method"
  | boundHook => "method-wrapper"
  | method => "method_descriptor"
  | hook => "wrapper_descriptor"
  | kindMethod => "classmethod_descriptor"
  | property => "getset_descriptor"
  | field => "member_descriptor"
  | loose => "staticmethod"
  | nothing => "NoneType"
  | integer => "int"
  | truth => "bool"
  | tuple => "tuple"
  | members => "mappingproxy"
  | parameterised => "GenericAlias"

/-- The module that a kind is from, if its full name says so. -/
def moduleName? : Kind → Option String
  | parameterised => some "types"
  | _ => none

/-- The name of a kind in messages. -/
def fullName (k : Kind) : String :=
  match k.moduleName? with
  | some m => m ++ "." ++ k.name
  | none => k.name

/-- The kinds whose members a kind has, its own first. -/
def lineage : Kind → List Kind
  | anything => [anything]
  | truth => [truth, integer, anything]
  | k => [k, anything]

/-- The signature of making a thing of a kind, where it is known. -/
def signature? : Kind → Option String
  | anything => some "()"
  | tuple => some "(iterable=(), /)"
  | _ => none

/-- What a thing of a kind takes up: `size` bytes, and `itemSize` more for each part; what it keeps
besides is found at the offsets, where it keeps any. -/
structure Extent where
  size : Nat
  itemSize : Nat
  flags : Nat
  membersOffset : Nat
  referencesOffset : Nat
deriving DecidableEq, Repr

def extent : Kind → Extent
  | text => ⟨80, 0, 273159424, 0, 0⟩
  | anything => ⟨16, 0, 529664, 0, 0⟩
  | kind => ⟨904, 40, 2148031744, 264, 368⟩
  | operation => ⟨56, 0, 547200, 0, 40⟩
  | boundHook => ⟨32, 0, 20864, 0, 0⟩
  | method => ⟨56, 0, 153984, 0, 0⟩
  | hook => ⟨56, 0, 676224, 0, 0⟩
  | kindMethod => ⟨56, 0, 545152, 0, 0⟩
  | property => ⟨48, 0, 545152, 0, 0⟩
  | field => ⟨48, 0, 545152, 0, 0⟩
  | loose => ⟨32, 0, 546048, 24, 0⟩
  | nothing => ⟨16, 0, 528640, 0, 0⟩
  | integer => ⟨24, 4, 21501184, 0, 0⟩
  | truth => ⟨32, 4, 21500160, 0, 0⟩
  | tuple => ⟨24, 8, 71849248, 0, 0⟩
  | members => ⟨24, 0, 545088, 0, 0⟩
  | parameterised => ⟨64, 0, 548096, 0, 40⟩

end Kind

end Interop.Template
