import Interop.Template.Field

/-!
# Filling templates

Each field of a template gives way to what it names, converted and laid out as the field says; two
braces of a kind stand for one.  All names are names of texts.  The directions of a layout may hold
fields, but these no further ones.
-/

set_option autoImplicit false

namespace Interop.Template

/-- Why a template cannot be filled. -/
inductive FillError
  | singleOpen
  | singleClose
  | field (error : FieldError)
  | unknownConversion (c : Char)
  | tooDeep
  /-- No text of this name. -/
  | noName (name : List Char)
  /-- No text at this place; there are only named ones. -/
  | noPlace (index : Nat)
  | subject (error : SubjectError)
deriving DecidableEq, Repr

def FillError.message : FillError → List Char
  | singleOpen => "Single '\x7b' encountered in format string".toList
  | singleClose => "Single '\x7d' encountered in format string".toList
  | field e => e.message
  | unknownConversion c => "Unknown conversion specifier ".toList ++ Text.shownChar c
  | tooDeep => "Max string recursion exceeded".toList
  | noName name => Text.quoted name
  | noPlace index =>
    "Replacement index ".toList ++ Nat.toDigits 10 index
      ++ " out of range for positional args tuple".toList
  | subject e => e.message

/-- Takes a step from a subject. -/
def Step.take (step : Step) (s : Subject) : Except SubjectError Subject :=
  match step with
  | attr name => s.attr name
  | item key => s.item key

/-- Follows the rest of a field's name from a subject. -/
def follow : Nat → Subject → List Char → Except FillError Subject
  | _, s, [] => .ok s
  | 0, s, _ => .ok s
  | steps + 1, s, t => do
    let (step, left) ← (leadingStep t).mapError .field
    follow steps (← (step.take s).mapError .subject) left

/-- The subject that a field's name stands for. -/
def named (texts : List (List Char × List Char)) (name : List Char) : Except FillError Subject := do
  let (first, rest) := splitName name
  match ← (placeOf first).mapError .field with
  | some n => throw (.noPlace n)
  | none =>
    if first.isEmpty then throw (.noPlace 0)
    else match texts.lookup first with
      | none => throw (.noName first)
      | some t => follow rest.length (.text t) rest

/-- A subject converted as a letter says. -/
def convert (conversion : Option Char) (s : Subject) : Except FillError Subject :=
  match conversion with
  | none => .ok s
  | some 's' => .ok (.text s.written)
  | some 'r' => .ok (.text s.shown)
  | some 'a' => .ok (.text (Text.inAscii s.shown))
  | some c => .error (.unknownConversion c)

/-- Fills in the fields of a template.  `depth` is how deep fields may be nested, and each
character takes a step; no field is laid out to more than `room` characters. -/
def fillFields (room : Nat) (texts : List (List Char × List Char)) :
    Nat → Nat → List Char → Except FillError (List Char)
  | 0, _, _ => .error .tooDeep
  | _, 0, _ => .ok []
  | depth + 1, steps + 1, t =>
    match t with
    | [] => .ok []
    | '\x7b' :: '\x7b' :: rest => do
      return '\x7b' :: (← fillFields room texts (depth + 1) steps rest)
    | '\x7d' :: '\x7d' :: rest => do
      return '\x7d' :: (← fillFields room texts (depth + 1) steps rest)
    | ['\x7b'] => .error .singleOpen
    | '\x7d' :: _ => .error .singleClose
    | '\x7b' :: rest => do
      let (field, left) ← (fieldText rest).mapError .field
      let s ← named texts field.name
      let s ← convert field.conversion s
      let directions ←
        if field.layout.contains '\x7b' then
          fillFields room texts depth (field.layout.length + 1) field.layout
        else pure field.layout
      let shown ← (s.layOut room directions).mapError .subject
      return shown ++ (← fillFields room texts (depth + 1) steps left)
    | c :: rest => do return c :: (← fillFields room texts (depth + 1) steps rest)
termination_by depth steps => (depth, steps)

/-- A template with its fields filled in from named texts. -/
def fill (room : Nat) (texts : List (List Char × List Char)) (template : List Char) :
    Except FillError (List Char) :=
  fillFields room texts 2 (template.length + 1) template

end Interop.Template
