import Interop.Schema.Shape

/-!
# Violations of the shape

`violations` collects everything in a value that breaks a rule, depth first: of one object first
its kind, then the members it should not have, then those it lacks, then what is wrong inside its
members, in the order of its shape.

Of all violations one is reported (`worst`).  The shallowest wins; of equally deep ones the one
that comes last by its path; of those at one place the first that is about the kind of the value,
or the first of all if none is.
-/

set_option autoImplicit false

namespace Interop.Schema

/-! ## Places -/

/-- A step from a value to a part of it. -/
inductive Step
  | member (key : String)
  | item (index : Nat)
deriving DecidableEq, Repr

def Step.text : Step → String
  | member key => key
  | item index => Nat.repr index

/-- Keys are ordered by code points and indexes as numbers. -/
def Step.compare : Step → Step → Ordering
  | member a, member b => Ord.compare a b
  | item a, item b => Ord.compare a b
  | member _, item _ => .lt
  | item _, member _ => .gt

def comparePaths : List Step → List Step → Ordering
  | [], [] => .eq
  | [], _ => .lt
  | _, [] => .gt
  | a :: as, b :: bs => (a.compare b).then (comparePaths as bs)

/-! ## Single violations -/

/-- What is wrong with a value. -/
inductive Breach
  | wrongKind (expected : List String) (value : Value)
  | notAmong (words : List String) (value : Value)
  | negative (value : Value)
  | emptyText
  | unexpected (keys : List String)
  | missing (key : String)
deriving Repr

structure Violation where
  path : List Step
  breach : Breach
  /-- Whether the value nevertheless is of the kind that its rule asks for. -/
  kindFits : Bool
deriving Repr

def Violation.within (step : Step) (v : Violation) : Violation :=
  { v with path := step :: v.path }

/-- Whether a value is an integer, in either form. -/
def isInteger : Value → Bool
  | .number n => n.isWhole
  | _ => false

/-- The violation of a value that is not of its kind. -/
def kindViolation (fits : Bool) (expected : List String) (v : Value) : List Violation :=
  if fits then [] else [⟨[], .wrongKind expected v, false⟩]

/-- The violation of a number below zero. -/
def signViolation (fits : Bool) (v : Value) : List Violation :=
  match v with
  | .number n => if n.less 0 then [⟨[], .negative v, fits⟩] else []
  | _ => []

/-- What is wrong with a value that is neither an object nor an array. -/
def scalarViolations (rule : Rule) (v : Value) : List Violation :=
  match rule with
  | .text => kindViolation (v matches .text _) ["string"] v
  | .filledText =>
    kindViolation (v matches .text _) ["string"] v
      ++ (match v with
        | .text s => if s.isEmpty then [⟨[], .emptyText, true⟩] else []
        | _ => [])
  | .integer => kindViolation (isInteger v) ["integer"] v
  | .natural => kindViolation (isInteger v) ["integer"] v ++ signViolation (isInteger v) v
  | .naturalOrNull =>
    let fits := isInteger v || v matches .null
    kindViolation fits ["integer", "null"] v ++ signViolation fits v
  | .flag => kindViolation (v matches .bool _) ["boolean"] v
  | .oneOf words =>
    match v with
    | .text s => if words.contains s then [] else [⟨[], .notAmong words v, false⟩]
    | _ => [⟨[], .notAmong words v, false⟩]
  | .object _ => [⟨[], .wrongKind ["object"] v, false⟩]
  | .array _ => [⟨[], .wrongKind ["array"] v, false⟩]

/-! ## All violations -/

/-- The violation of an object with members beyond its shape. -/
def unexpectedMembers (shape : Shape) (keys : List String) : List Violation :=
  match keys.filter fun k => !shape.members.any (·.key == k) with
  | [] => []
  | extra => [⟨[], .unexpected (extra.mergeSort (· ≤ ·)), true⟩]

/-- The violations of an object without members that its shape requires. -/
def missingMembers (shape : Shape) (keys : List String) : List Violation :=
  (shape.members.filter fun m => m.required && !keys.contains m.key).map fun m =>
    ⟨[], .missing m.key, true⟩

mutual

/-- Everything in a value that breaks a rule. -/
def violations : Rule → Value → List Violation
  | .object shape, .table entries =>
    let keys := entries.map (·.1)
    unexpectedMembers shape keys ++ missingMembers shape keys
      ++ shape.members.flatMap fun m => memberViolations m.key m.rule entries
  | .array shape, .list items => itemViolations shape 0 items
  | rule, v => scalarViolations rule v

/-- Everything that breaks the rule of one member of an object. -/
def memberViolations (key : String) (rule : Rule) : List (String × Value) → List Violation
  | [] => []
  | (k, v) :: rest =>
    if k = key then (violations rule v).map (·.within (.member key))
    else memberViolations key rule rest

/-- Everything that breaks the shape of items, the first of which has this index. -/
def itemViolations (shape : Shape) (index : Nat) : List Value → List Violation
  | [] => []
  | v :: rest =>
    (violations (.object shape) v).map (·.within (.item index))
      ++ itemViolations shape (index + 1) rest

end

/-! ## The violation to report -/

/-- Whether a violation is reported rather than one found before it. -/
def Violation.outranks (v best : Violation) : Bool :=
  if v.path.length ≠ best.path.length then decide (v.path.length < best.path.length)
  else match comparePaths v.path best.path with
    | .gt => true
    | .lt => false
    | .eq => !v.kindFits && best.kindFits

/-- The violation to report. -/
def worst : List Violation → Option Violation
  | [] => none
  | v :: rest => some (rest.foldl (fun best v => if v.outranks best then v else best) v)

/-! ## Text -/

/-- Words in quotes with commas between them. -/
def quotedWords (words : List String) : List Char :=
  Text.joinWith [',', ' '] (words.map fun w => Text.quoted w.toList)

def Breach.message : Breach → Except NumberFault (List Char)
  | wrongKind expected v => do
    return (← v.quotedText) ++ " is not of type ".toList ++ quotedWords expected
  | notAmong words v => do
    return (← v.quotedText) ++ " is not one of [".toList ++ quotedWords words ++ [']']
  | negative v => do return (← v.quotedText) ++ " is less than the minimum of 0".toList
  | emptyText => .ok "'' should be non-empty".toList
  | unexpected keys =>
    let ending := if keys.length = 1 then " was unexpected)" else " were unexpected)"
    .ok ("Additional properties are not allowed (".toList ++ quotedWords keys ++ ending.toList)
  | missing key => .ok (Text.quoted key.toList ++ " is a required property".toList)

/-- The place of a violation, as in a file path. -/
def Violation.place (v : Violation) : List Char :=
  match v.path with
  | [] => "<root>".toList
  | path => Text.joinWith ['/'] (path.map (·.text.toList))

def Violation.message (v : Violation) : Except NumberFault String := do
  return String.ofList
    ("invalid C model at ".toList ++ v.place ++ ':' :: ' ' :: (← v.breach.message))

/-- What a model file has to be. -/
def check (v : Value) : Option Violation := worst (violations (.object .document) v)

end Interop.Schema
