import Interop.Decl.Basic
import Interop.Schema.Violation

/-!
# Reading declarations from a model file

A document that has the right shape (`Schema.check`) is read member by member.  Members that may
be left out have a value then: a type has its name as its native one, a date is empty, an array
count is absent, a flag is false and a list is empty.

The reader finds members by their keys, and a `Gap` says what it did not find.  `Header.ofValue`
reads only what `Schema.check` accepts.
-/

set_option autoImplicit false

namespace Interop.Decl

/-- Why a value is no declaration. -/
inductive Gap
  | missing (key : String)
  | wrongKind (key : String)
deriving DecidableEq, Repr

namespace Document

open Value (Entries)

/-! ## Members -/

def text (entries : Entries) (key : String) : Except Gap String :=
  match Value.lookup key entries with
  | some (.text s) => .ok s
  | some _ => .error (.wrongKind key)
  | none => .error (.missing key)

def textOr (default : String) (entries : Entries) (key : String) : Except Gap String :=
  match Value.lookup key entries with
  | some (.text s) => .ok s
  | some _ => .error (.wrongKind key)
  | none => .ok default

def number (entries : Entries) (key : String) : Except Gap Number :=
  match Value.lookup key entries with
  | some (.number n) => .ok n
  | some _ => .error (.wrongKind key)
  | none => .error (.missing key)

def numberOrNull (entries : Entries) (key : String) : Except Gap (Option Number) :=
  match Value.lookup key entries with
  | some (.number n) => .ok (some n)
  | some .null | none => .ok none
  | some _ => .error (.wrongKind key)

def flag (entries : Entries) (key : String) : Except Gap Bool :=
  match Value.lookup key entries with
  | some (.bool b) => .ok b
  | some _ => .error (.wrongKind key)
  | none => .ok false

def object (entries : Entries) (key : String) : Except Gap Entries :=
  match Value.lookup key entries with
  | some (.table inner) => .ok inner
  | some _ => .error (.wrongKind key)
  | none => .error (.missing key)

/-- An item of an array as an object. -/
def itemEntries (key : String) : Value → Except Gap Entries
  | .table entries => .ok entries
  | _ => .error (.wrongKind key)

/-- A list of objects, each read by the same reader. -/
def each {α : Type} (read : Entries → Except Gap α) (entries : Entries) (key : String) :
    Except Gap (List α) :=
  match Value.lookup key entries with
  | some (.list items) => items.mapM fun v => itemEntries key v >>= read
  | some _ => .error (.wrongKind key)
  | none => .ok []

/-! ## Declarations -/

def location (entries : Entries) : Except Gap (Option Location) := do
  let l ← object entries "location"
  return some
    { kind := ← text l "kind"
      fileName := ← text l "file_name"
      line := ← number l "line"
      dateTime := ← textOr "" l "date_time" }

/-- The type under a key. -/
def type (entries : Entries) (key : String) : Except Gap TypeUse := do
  let t ← object entries key
  let name ← text t "name"
  return {
    name
    nativeName := ← textOr name t "original_name"
    sizeOf := ← number t "size_of"
    alignOf := ← number t "align_of"
    arraySize := ← numberOrNull t "array_size"
    isSystem := ← flag t "is_system_type" }

def convention (entries : Entries) : Except Gap CallingConvention := do
  match ← text entries "calling_convention" with
  | "C" => return .c
  | "Unknown" => return .unknown
  | other => return .other other

def parameter (entries : Entries) : Except Gap Parameter := do
  return {
    name := ← text entries "name"
    location := ← location entries
    type := ← type entries "type"
    isReadOnly := ← flag entries "is_read_only" }

def function (entries : Entries) : Except Gap Function := do
  return {
    name := ← text entries "name"
    location := ← location entries
    callingConvention := ← convention entries
    returnType := ← type entries "return_type"
    parameters := ← each parameter entries "parameters" }

def functionPointer (entries : Entries) : Except Gap FunctionPointer := do
  return {
    name := ← text entries "name"
    location := ← location entries
    type := ← type entries "type" }

def field (entries : Entries) : Except Gap Field := do
  return {
    name := ← text entries "name"
    location := ← location entries
    type := ← type entries "type"
    offset := ← number entries "offset"
    padding := ← number entries "padding" }

mutual

def record : Value → Except Gap Record
  | .table entries => do
    return {
      name := ← text entries "name"
      location := ← location entries
      type := ← type entries "type"
      fields := ← each field entries "fields"
      nested := ← nestedRecords entries }
  | _ => .error (.wrongKind "nested_records")

/-- The records nested in a record. -/
def nestedRecords : Entries → Except Gap (List Record)
  | [] => .ok []
  | (key, v) :: rest => if key = "nested_records" then recordList v else nestedRecords rest

def recordList : Value → Except Gap (List Record)
  | .list items => recordItems items
  | _ => .error (.wrongKind "nested_records")

def recordItems : List Value → Except Gap (List Record)
  | [] => .ok []
  | v :: rest => do return (← record v) :: (← recordItems rest)

end

/-- The records of a whole header. -/
def records (entries : Entries) : Except Gap (List Record) :=
  match Value.lookup "records" entries with
  | some v => recordList v
  | none => .ok []

def opaquePointer (entries : Entries) : Except Gap OpaquePointer := do
  return {
    name := ← text entries "name"
    location := ← location entries
    pointerType := ← type entries "pointer_type" }

def opaqueType (entries : Entries) : Except Gap OpaqueType := do
  return { name := ← text entries "name", location := ← location entries }

def typedef (entries : Entries) : Except Gap Alias := do
  return {
    name := ← text entries "name"
    location := ← location entries
    underlyingType := ← type entries "underlying_type" }

def enumMember (entries : Entries) : Except Gap EnumMember := do
  return {
    name := ← text entries "name"
    location := ← location entries
    value := ← number entries "value" }

def enumeration (entries : Entries) : Except Gap Enumeration := do
  return {
    name := ← text entries "name"
    location := ← location entries
    integerType := ← type entries "integer_type"
    members := ← each enumMember entries "values" }

def header (entries : Entries) : Except Gap Header := do
  return {
    functions := ← each function entries "function_externs"
    functionPointers := ← each functionPointer entries "function_pointers"
    records := ← records entries
    opaquePointers := ← each opaquePointer entries "opaque_pointers"
    opaqueTypes := ← each opaqueType entries "opaque_data_types"
    aliases := ← each typedef entries "alias_types"
    enumerations := ← each enumeration entries "enums" }

end Document

/-! ## Loading -/

/-- Why a document gives no header. -/
inductive DocumentError
  | invalid (violation : Schema.Violation)
  | gap (gap : Gap)
deriving Repr

/-- The declarations of a document of the right shape. -/
def Header.ofValue (v : Value) : Except DocumentError Header :=
  match Schema.check v with
  | some violation => .error (.invalid violation)
  | none =>
    match Document.itemEntries "" v >>= Document.header with
    | .ok h => .ok h
    | .error g => .error (.gap g)

end Interop.Decl
