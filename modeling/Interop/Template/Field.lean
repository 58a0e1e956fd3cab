import Interop.Template.Subject

/-!
# Fields of templates

A template is text with fields in braces.  A field has a name, and may have a conversion behind
`!` and directions for its layout behind `:`.  The directions may contain fields themselves.
-/

set_option autoImplicit false

namespace Interop.Template

/-- Why a field cannot be read. -/
inductive FieldError
  | openInName
  | unclosedName
  | unclosedLayout
  | missingConversion
  | afterConversion
  | emptyAttribute
  | missingBracket
  | afterBracket
  | tooManyDigits
deriving DecidableEq, Repr

def FieldError.message : FieldError → List Char
  | openInName => "unexpected '\x7b' in field name".toList
  | unclosedName => "expected '\x7d' before end of string".toList
  | unclosedLayout => "unmatched '\x7b' in format spec".toList
  | missingConversion => "end of string while looking for conversion specifier".toList
  | afterConversion => "expected ':' after conversion specifier".toList
  | emptyAttribute => "Empty attribute in format string".toList
  | missingBracket => "Missing ']' in format string".toList
  | afterBracket => "Only '.' or '[' may follow ']' in format field specifier".toList
  | tooManyDigits => "Too many decimal digits in format string".toList

/-- A field as it is written. -/
structure FieldText where
  name : List Char
  conversion : Option Char
  /-- The directions for the layout. -/
  layout : List Char
deriving DecidableEq, Repr

/-- The name of a field, the mark that ends it and what follows; a bracket in the name hides marks
up to its partner. -/
def fieldName : List Char → Except FieldError (List Char × Char × List Char)
  | [] => .error .unclosedName
  | '\x7b' :: _ => .error .openInName
  | '\x7d' :: rest => .ok ([], '\x7d', rest)
  | ':' :: rest => .ok ([], ':', rest)
  | '!' :: rest => .ok ([], '!', rest)
  | '[' :: rest => inBracket rest ['[']
  | c :: rest => do
    let (name, mark, left) ← fieldName rest
    return (c :: name, mark, left)
where
  /-- The same inside a bracket; what was passed over is kept in reverse. -/
  inBracket : List Char → List Char → Except FieldError (List Char × Char × List Char)
    | [], _ => .error .unclosedName
    | ']' :: rest, passed => do
      let (name, mark, left) ← fieldName rest
      return (passed.reverse ++ ']' :: name, mark, left)
    | c :: rest, passed => inBracket rest (c :: passed)

/-- The layout of a field, up to the brace that ends the field; braces inside it are paired. -/
def fieldLayout : Nat → List Char → Except FieldError (List Char × List Char)
  | _, [] => .error .unclosedLayout
  | depth, '\x7b' :: rest => do
    let (layout, left) ← fieldLayout (depth + 1) rest
    return ('\x7b' :: layout, left)
  | 0, '\x7d' :: rest => .ok ([], rest)
  | depth + 1, '\x7d' :: rest => do
    let (layout, left) ← fieldLayout depth rest
    return ('\x7d' :: layout, left)
  | depth, c :: rest => do
    let (layout, left) ← fieldLayout depth rest
    return (c :: layout, left)

/-- A field after its opening brace. -/
def fieldText (t : List Char) : Except FieldError (FieldText × List Char) := do
  let (name, mark, rest) ← fieldName t
  if mark = '\x7d' then return (⟨name, none, []⟩, rest)
  else if mark = ':' then
    let (layout, left) ← fieldLayout 0 rest
    return (⟨name, none, layout⟩, left)
  else match rest with
    | [] => throw .missingConversion
    | [_] => throw .unclosedLayout
    | c :: '\x7d' :: left => return (⟨name, some c, []⟩, left)
    | c :: ':' :: left =>
      let (layout, left) ← fieldLayout 0 left
      return (⟨name, some c, layout⟩, left)
    | _ => throw .afterConversion

/-- The number that digits make after those read so far; none if something else follows.  It has
to stay below the limit even then. -/
def placeFrom (n : Nat) : List Char → Except FieldError (Option Nat)
  | [] => .ok (some n)
  | c :: rest =>
    match Text.decimalValue? c with
    | none => .ok none
    | some d =>
      let n := 10 * n + d
      if Text.countLimit ≤ n then .error .tooManyDigits else placeFrom n rest

/-- Whether a text is a run of decimal digits, and which number it is. -/
def placeOf (t : List Char) : Except FieldError (Option Nat) :=
  if t.isEmpty then .ok none else placeFrom 0 t

/-- A step from a subject to another. -/
inductive Step
  | attr (name : List Char)
  | item (key : Key)
deriving DecidableEq, Repr

/-- The key that stands between brackets: digits are a number, all else is a name. -/
def keyOf (t : List Char) : Except FieldError Key :=
  if t.isEmpty then .error .emptyAttribute
  else do
    match ← placeOf t with
    | some n => return .place n
    | none => return .name t

/-- The step that the rest of a field's name begins with, and what is left behind it. -/
def leadingStep (t : List Char) : Except FieldError (Step × List Char) :=
  match t with
  | '.' :: rest =>
    let name := rest.takeWhile fun c => c != '.' && c != '['
    if name.isEmpty then .error .emptyAttribute
    else .ok (.attr name, rest.drop name.length)
  | '[' :: rest =>
    let index := rest.takeWhile (· != ']')
    match rest.drop index.length with
    | [] => .error .missingBracket
    | _ :: left => do return (.item (← keyOf index), left)
  | _ => .error .afterBracket

/-- What a field's name begins with, and the rest of it. -/
def splitName (name : List Char) : List Char × List Char :=
  let first := name.takeWhile fun c => c != '.' && c != '['
  (first, name.drop first.length)

end Interop.Template
