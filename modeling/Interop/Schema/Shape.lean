import Interop.Value.Basic

/-!
# The shape of a model file

A model file is a tree of objects, each of a fixed shape: a list of members with a rule for the
value of each.  No object has members beyond its shape.  The members of a shape are listed in the
order in which a check goes through them.
-/

set_option autoImplicit false

namespace Interop.Schema

/-- The objects of a model file. -/
inductive Shape
  | document
  | location
  | type
  | parameter
  | function
  | functionPointer
  | field
  | record
  | opaquePointer
  | opaqueType
  | typedef
  | enumMember
  | enumeration
deriving DecidableEq, Repr

/-- What a value has to be.  An integer may be written as a double without a fraction. -/
inductive Rule
  | text
  | filledText
  | integer
  | natural
  | naturalOrNull
  | flag
  | oneOf (words : List String)
  | object (shape : Shape)
  | array (shape : Shape)
deriving DecidableEq, Repr

/-- A member of an object. -/
structure Member where
  key : String
  rule : Rule
  required : Bool
deriving DecidableEq, Repr

def required (key : String) (rule : Rule) : Member := ⟨key, rule, true⟩

def optional (key : String) (rule : Rule) : Member := ⟨key, rule, false⟩

/-- The members that every declaration begins with. -/
def declared : List Member := [required "name" .filledText, required "location" (.object .location)]

/-- The members of an object. -/
def Shape.members : Shape → List Member
  | document =>
    [optional "function_externs" (.array .function),
     optional "function_pointers" (.array .functionPointer),
     optional "records" (.array .record),
     optional "opaque_pointers" (.array .opaquePointer),
     optional "opaque_data_types" (.array .opaqueType),
     optional "alias_types" (.array .typedef),
     optional "enums" (.array .enumeration)]
  | location =>
    [required "kind" .text, required "file_name" .text, required "line" .natural,
     optional "date_time" .text]
  | type =>
    [required "name" .filledText, optional "original_name" .text, required "size_of" .natural,
     required "align_of" .natural, optional "array_size" .naturalOrNull,
     optional "is_system_type" .flag]
  | parameter =>
    [required "name" .text, required "location" (.object .location),
     required "type" (.object .type), optional "is_read_only" .flag]
  | function =>
    declared ++
    [required "calling_convention" (.oneOf ["C", "Unknown"]),
     required "return_type" (.object .type), optional "parameters" (.array .parameter)]
  | functionPointer => declared ++ [required "type" (.object .type)]
  | field =>
    declared ++
    [required "type" (.object .type), required "offset" .natural, required "padding" .natural]
  | record =>
    declared ++
    [required "type" (.object .type), optional "fields" (.array .field),
     optional "nested_records" (.array .record)]
  | opaquePointer => declared ++ [required "pointer_type" (.object .type)]
  | opaqueType => declared
  | typedef => declared ++ [required "underlying_type" (.object .type)]
  | enumMember => declared ++ [required "value" .integer]
  | enumeration =>
    declared ++
    [required "integer_type" (.object .type), optional "values" (.array .enumMember)]

/-! ## The shapes as a schema document -/

/-- The name of a shape among the definitions of the schema document. -/
def Shape.name : Shape → String
  | document => "Document"
  | location => "Location"
  | type => "Type"
  | parameter => "Parameter"
  | function => "FunctionExtern"
  | functionPointer => "FunctionPointer"
  | field => "RecordField"
  | record => "Record"
  | opaquePointer => "OpaquePointer"
  | opaqueType => "OpaqueDataType"
  | typedef => "AliasType"
  | enumMember => "EnumValue"
  | enumeration => "Enum"

def Shape.reference (s : Shape) : Value := .table [("$ref", .text ("#/$defs/" ++ s.name))]

def Rule.schema : Rule → Value
  | text => .table [("type", .text "string")]
  | filledText => .table [("type", .text "string"), ("minLength", .int 1)]
  | integer => .table [("type", .text "integer")]
  | natural => .table [("type", .text "integer"), ("minimum", .int 0)]
  | naturalOrNull =>
    .table [("type", .list [.text "integer", .text "null"]), ("minimum", .int 0)]
  | flag => .table [("type", .text "boolean")]
  | oneOf words => .table [("enum", .list (words.map .text))]
  | object shape => shape.reference
  | array shape => .table [("type", .text "array"), ("items", shape.reference)]

/-- The keywords that describe an object. -/
def Shape.keywords (s : Shape) : List (String × Value) :=
  let needed := (s.members.filter (·.required)).map fun m => Value.text m.key
  [("type", .text "object"), ("additionalProperties", .bool false)]
    ++ (if needed.isEmpty then [] else [("required", .list needed)])
    ++ [("properties", .table (s.members.map fun m => (m.key, m.rule.schema)))]

/-- The shapes that the document refers to. -/
def definitions : List Shape :=
  [.location, .type, .parameter, .function, .functionPointer, .field, .record, .opaquePointer,
   .opaqueType, .typedef, .enumMember, .enumeration]

/-- The schema document of model files. -/
def document : Value :=
  .table
    ([("$schema", .text "https://json-schema.org/draft/2020-12/schema"),
      ("$id", .text "c2cs://c-model.schema.json"),
      ("title", .text "C declaration model")]
    ++ Shape.document.keywords
    ++ [("$defs", .table (definitions.map fun s => (s.name, .table s.keywords)))])

end Interop.Schema
