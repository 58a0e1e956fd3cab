import Interop.Template.Roll
import Interop.Text.Layout
import Interop.Text.Quoted

/-!
# Subjects

What a field of a template can name: a text, and all that can be got to from one by its members and
items.  A subject has a kind, its members come from its kind, and each has a text to be shown by.
-/

set_option autoImplicit false

namespace Interop.Template

inductive Subject
  | text (t : List Char)
  | nothing
  | integer (n : Int)
  | truth (b : Bool)
  | tuple (items : List Subject)
  | kind (k : Kind)
  /-- The members of a kind by their names. -/
  | members (k : Kind)
  | parameterised (k : Kind) (part : Subject)
  /-- A member on its own. -/
  | member (e : Entry)
  /-- An operation or a hook together with what it is for. -/
  | bound (e : Entry) (self : Subject)
  /-- An operation that is for nothing in particular. -/
  | loose (e : Entry)
deriving Repr

/-- The kind that a member is of when it is taken on its own. -/
def Member.kind : Member → Kind
  | .hook => .hook
  | .maker => .operation
  | .operation .. => .method
  | .kindOperation .. => .kindMethod
  | .loose .. => .loose
  | .property _ => .property
  | .field => .field
  | .nothing => .nothing
  | .constant _ => .text

def Subject.kindOf : Subject → Kind
  | text _ => .text
  | nothing => .nothing
  | integer _ => .integer
  | truth _ => .truth
  | tuple _ => .tuple
  | kind _ => .kind
  | members _ => .members
  | parameterised .. => .parameterised
  | member e => e.member.kind
  | bound e _ => if e.member = .hook then .boundHook else .operation
  | loose _ => .operation

/-- Why a field cannot get on from a subject, or cannot show it. -/
inductive SubjectError
  | noAttribute (k : Kind) (name : List Char)
  | noKindAttribute (k : Kind) (name : List Char)
  /-- An attribute that only some kinds can be given. -/
  | notGiven (name : List Char)
  | textIndexNotInteger
  | textIndexOutOfRange
  | tupleIndexNotInteger
  | tupleIndexOutOfRange
  /-- No member goes by this number. -/
  | noMemberAt (index : Nat)
  | noMember (name : List Char)
  | noItems (k : Kind)
  | noKindItems (k : Kind)
  | notGeneric (shown : List Char)
  /-- Things of the kind take no directions for their layout. -/
  | noLayout (k : Kind)
  | layout (error : Text.LayoutError)
deriving DecidableEq, Repr

def SubjectError.message : SubjectError → List Char
  | noAttribute k name =>
    '\'' :: k.fullName.toList ++ "' object has no attribute '".toList ++ name ++ ['\'']
  | noKindAttribute k name =>
    "type object '".toList ++ k.fullName.toList ++ "' has no attribute '".toList ++ name
      ++ ['\'']
  | notGiven name => name
  | textIndexNotInteger => "string indices must be integers, not 'str'".toList
  | textIndexOutOfRange => "string index out of range".toList
  | tupleIndexNotInteger => "tuple indices must be integers or slices, not str".toList
  | tupleIndexOutOfRange => "tuple index out of range".toList
  | noMemberAt index => Nat.toDigits 10 index
  | noMember name => Text.quoted name
  | noItems k => '\'' :: k.fullName.toList ++ "' object is not subscriptable".toList
  | noKindItems k => "type '".toList ++ k.fullName.toList ++ "' is not subscriptable".toList
  | notGeneric shown => shown ++ " is not a generic class".toList
  | noLayout k =>
    "unsupported format string passed to ".toList ++ k.fullName.toList ++ ".__format__".toList
  | layout e => e.message

/-! ## What is shown -/

/-- Where a thing is kept differs from run to run; this is one place of the usual length. -/
def place : List Char := "0x7f0000000000".toList

def shownTruth (b : Bool) : List Char := (if b then "True" else "False").toList

/-- An operation together with a thing of a kind, as it is shown. -/
def shownOperation (name : String) (k : Kind) : List Char :=
  "<built-in method ".toList ++ name.toList ++ " of ".toList ++ k.fullName.toList
    ++ " object at ".toList ++ place ++ ['>']

/-- A member of a kind, as it is shown; `what` says what it is. -/
def Entry.shownAs (e : Entry) (what : String) : List Char :=
  '<' :: what.toList ++ " '".toList ++ e.name.toList ++ "' of '".toList
    ++ e.owner.fullName.toList ++ "' objects>".toList

/-- The text of lines. -/
def ofLines (lines : List String) : List Char := ("\n".intercalate lines).toList

/-- A member on its own, as it is shown. -/
def Entry.shown (e : Entry) : List Char :=
  match e.member with
  | .hook => e.shownAs "slot wrapper"
  | .maker => shownOperation e.name .kind
  | .operation .. | .kindOperation .. => e.shownAs "method"
  | .loose .. => "<staticmethod(".toList ++ shownOperation e.name .kind ++ ")>".toList
  | .property _ => e.shownAs "attribute"
  | .field => e.shownAs "member"
  | .nothing => "None".toList
  | .constant lines => Text.quoted (ofLines lines)

/-- The members of a kind, as they are shown. -/
def Kind.shownRoll (k : Kind) : List Char :=
  let entries := k.roll.map fun (name, m) =>
    Text.quoted name.toList ++ ": ".toList ++ Entry.shown ⟨k, name, m⟩
  '\x7b' :: ", ".toList.intercalate entries ++ ['\x7d']

mutual

/-- A subject as it is shown where it has to be told from others. -/
def Subject.shown : Subject → List Char
  | .text t => Text.quoted t
  | .nothing => "None".toList
  | .integer n => (toString n).toList
  | .truth b => shownTruth b
  | .tuple [item] => '(' :: item.shown ++ ",)".toList
  | .tuple items => '(' :: ", ".toList.intercalate (shownItems items) ++ [')']
  | .kind k => "<class '".toList ++ k.fullName.toList ++ "'>".toList
  | .members k => "mappingproxy(".toList ++ k.shownRoll ++ [')']
  | .parameterised k part => k.fullName.toList ++ '[' :: part.shown ++ [']']
  | .member e => e.shown
  | .bound e self =>
    if e.member = .hook then
      "<method-wrapper '".toList ++ e.name.toList ++ "' of ".toList
        ++ self.kindOf.fullName.toList ++ " object at ".toList ++ place ++ ['>']
    else shownOperation e.name self.kindOf
  | .loose e => shownOperation e.name .kind

def shownItems : List Subject → List (List Char)
  | [] => []
  | s :: rest => s.shown :: shownItems rest

end

/-- A subject as it is written: a text stands for itself, and members are plain entries. -/
def Subject.written : Subject → List Char
  | text t => t
  | members k => k.shownRoll
  | s => s.shown

/-! ## Attributes -/

/-- A member on its own. -/
def Entry.alone (e : Entry) : Subject :=
  match e.member with
  | .maker => .bound e (.kind e.owner)
  | .nothing => .nothing
  | .constant lines => .text (ofLines lines)
  | _ => .member e

/-- A member as it is got from a kind that has it. -/
def Entry.ofKind (e : Entry) (k : Kind) : Subject :=
  match e.member with
  | .kindOperation .. => .bound e (.kind k)
  | .loose .. => .loose e
  | _ => e.alone

/-- A member as it is got from a thing that has it. -/
def Entry.ofThing (e : Entry) (s : Subject) : Subject :=
  match e.member with
  | .hook | .operation .. => .bound e s
  | _ => e.ofKind s.kindOf

def ofText? : Option String → Subject
  | some t => .text t.toList
  | none => .nothing

/-- What is told about a member. -/
def Entry.told (e : Entry) : Subject :=
  match e.about with
  | [] => .nothing
  | lines => .text (ofLines lines)

/-- What is told about kinds. -/
def kindAbout : List String :=
  ["type(object) -> the object's type",
   "type(name, bases, dict, **kwds) -> a new type"]

/-- What is told about a kind; some only have a property that tells about their things. -/
def Kind.told (k : Kind) : Subject :=
  match k with
  | .kind => .text (ofLines kindAbout)
  | k => match k.own? "__doc__" with
    | some e => e.alone
    | none => .nothing

/-- The value of a property or a field of a kind. -/
def Kind.value? (k : Kind) (name : String) : Option Subject :=
  match name with
  | "__name__" | "__qualname__" => some (.text k.name.toList)
  | "__module__" => some (.text (k.moduleName?.getD "builtins").toList)
  | "__bases__" => some (.tuple ((k.lineage.tail.take 1).map .kind))
  | "__base__" => some ((k.lineage.tail.head?.map .kind).getD .nothing)
  | "__mro__" => some (.tuple (k.lineage.map .kind))
  | "__dict__" => some (.members k)
  | "__doc__" => some k.told
  | "__text_signature__" => some (ofText? k.signature?)
  | "__basicsize__" => some (.integer k.extent.size)
  | "__itemsize__" => some (.integer k.extent.itemSize)
  | "__flags__" => some (.integer k.extent.flags)
  | "__dictoffset__" => some (.integer k.extent.membersOffset)
  | "__weakrefoffset__" => some (.integer k.extent.referencesOffset)
  | _ => none

/-- The value of a property or a field that integers have. -/
def integerValue? (n : Int) (name : String) : Option Subject :=
  match name with
  | "real" | "numerator" => some (.integer n)
  | "imag" => some (.integer 0)
  | "denominator" => some (.integer 1)
  | _ => none

/-- The value of a property or a field that members have, whether on their own or not. -/
def Entry.value? (e : Entry) (name : String) : Option Subject :=
  match name with
  | "__name__" => some (.text e.name.toList)
  | "__qualname__" => some (.text e.fullName.toList)
  | "__objclass__" => some (.kind e.owner)
  | "__doc__" => some e.told
  | "__text_signature__" => some (ofText? e.signature?)
  | _ => none

/-- The name of an operation behind the name of what it is for: of a kind, or else of its kind. -/
def Entry.boundName (e : Entry) (self : Subject) : String :=
  (match self with
    | .kind k => k.name
    | s => s.kindOf.name) ++ "." ++ e.name

/-- The value of a property or a field of a subject. -/
def Subject.value? (s : Subject) (name : String) : Option Subject :=
  if name = "__class__" then some (.kind s.kindOf)
  else match s with
    | integer n => integerValue? n name
    | truth b => integerValue? b.toNat name
    | kind k => k.value? name
    | parameterised k part => match name with
      | "__origin__" => some (.kind k)
      | "__args__" => some (.tuple [part])
      | "__parameters__" => some (.tuple [])
      | "__unpacked__" => some (.truth false)
      | "__typing_unpacked_tuple_args__" => some .nothing
      | _ => none
    | member e => match e.member, name with
      | .loose .., "__func__" | .loose .., "__wrapped__" => some (.loose e)
      | .loose .., "__isabstractmethod__" => some (.truth false)
      | _, _ => e.value? name
    | bound e self => match name with
      | "__self__" => some self
      | "__module__" => some .nothing
      | "__qualname__" =>
        if e.member = .hook then e.value? name else some (.text (e.boundName self).toList)
      | _ => e.value? name
    | loose e => match name with
      | "__self__" | "__module__" => some .nothing
      | _ => e.value? name
    | _ => none

/-- An attribute that a subject has from its kind. -/
def Subject.ownAttr (s : Subject) (name : List Char) : Except SubjectError Subject :=
  let failure := SubjectError.noAttribute s.kindOf name
  match s.kindOf.member? (String.ofList name) with
  | none => .error failure
  | some e =>
    if e.member.isData then match s.value? e.name with
      | some v => .ok v
      | none => .error failure
    else .ok (e.ofThing s)

/-- An attribute of a kind.  The properties of kinds come first, then the members that the kind
gives to its things, then what all kinds have. -/
def Kind.attr (k : Kind) (name : List Char) : Except SubjectError Subject :=
  let ofKinds := Kind.kind.member? (String.ofList name)
  match ofKinds, k.member? (String.ofList name) with
  | none, none => .error (.noKindAttribute k name)
  | none, some e => .ok (e.ofKind k)
  | some e, own =>
    if e.member.isData then match (Subject.kind k).value? e.name with
      | some v => .ok v
      | none =>
        .error (if e.name = "__abstractmethods__" then .notGiven name else .noKindAttribute k name)
    else match own with
      | some e => .ok (e.ofKind k)
      | none => .ok (e.ofThing (.kind k))

/-- The attributes that a kind of containers keeps for itself when it is given their parts. -/
def partAttributes : List String :=
  ["__class__", "__origin__", "__args__", "__unpacked__", "__parameters__",
   "__typing_unpacked_tuple_args__", "__mro_entries__", "__reduce_ex__", "__reduce__", "__copy__",
   "__deepcopy__"]

/-- The attribute of this name. -/
def Subject.attr (s : Subject) (name : List Char) : Except SubjectError Subject :=
  match s with
  | kind k => k.attr name
  | parameterised k _ =>
    if partAttributes.contains (String.ofList name) then s.ownAttr name else k.attr name
  | s => s.ownAttr name

/-! ## Items -/

/-- What an item is asked for by. -/
inductive Key
  | place (index : Nat)
  | name (t : List Char)
deriving DecidableEq, Repr

def Key.subject : Key → Subject
  | place n => .integer n
  | name t => .text t

/-- A kind together with parts, if it is a kind of containers. -/
def Kind.item (k : Kind) (key : Key) : Except SubjectError Subject :=
  if k = .kind ∨ (k.member? "__class_getitem__").isSome then .ok (.parameterised k key.subject)
  else .error (.noKindItems k)

/-- The item that a key stands for. -/
def Subject.item (s : Subject) (key : Key) : Except SubjectError Subject :=
  match s, key with
  | text t, .place n => match t[n]? with
    | some c => .ok (.text [c])
    | none => .error .textIndexOutOfRange
  | text _, .name _ => .error .textIndexNotInteger
  | tuple items, .place n => match items[n]? with
    | some item => .ok item
    | none => .error .tupleIndexOutOfRange
  | tuple _, .name _ => .error .tupleIndexNotInteger
  | members _, .place n => .error (.noMemberAt n)
  | members k, .name t => match k.own? (String.ofList t) with
    | some e => .ok e.alone
    | none => .error (.noMember t)
  | kind k, key => k.item key
  | parameterised .., _ => .error (.notGeneric s.shown)
  | s, _ => .error (.noItems s.kindOf)

/-! ## Layout -/

/-- A subject laid out as directed. -/
def Subject.layOut (room : Nat) (directions : List Char) (s : Subject) :
    Except SubjectError (List Char) :=
  match s with
  | text t => (Text.layOutText room directions t).mapError .layout
  | s =>
    if directions.isEmpty then .ok s.written
    else match s with
      | integer n => (Text.layOutInteger room directions n).mapError .layout
      | truth b => (Text.layOutInteger room directions b.toNat).mapError .layout
      | s => .error (.noLayout s.kindOf)

end Interop.Template
