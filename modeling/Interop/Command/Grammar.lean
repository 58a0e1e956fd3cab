import Interop.Text.Digits
import Interop.Text.Lines
import Interop.Text.Quoted

/-!
# The grammar of a command line

An argument is an option, a value, or the separator `--`, after which everything is a value.  An
option can be shortened as long as it stays unique, and its value can be attached: after an equals
sign, or right behind an option of one letter.  What looks like a negative number, or holds a
space, is a value unless it is an option of the command.

`Word.ofText` says what an argument is by itself; what becomes of the words is the business of the
command they belong to.
-/

set_option autoImplicit false

namespace Interop.Command

/-- An option of a command, under the key that the command knows it by. -/
structure OptionForm (κ : Type) where
  key : κ
  names : List (List Char)
  takesValue : Bool
deriving Repr

/-- How an option is called in messages: by all its names. -/
def OptionForm.title {κ : Type} (f : OptionForm κ) : List Char := Text.joinWith ['/'] f.names

/-- What an argument is. -/
inductive Word (κ : Type)
  | value (text : List Char)
  | separator
  | unknown (text : List Char)
  /-- An option under one of its names, with the value that is attached to it. -/
  | option (form : OptionForm κ) (name : List Char) (attached : Option (List Char))
    (text : List Char)
deriving Repr

/-- The argument itself. -/
def Word.text {κ : Type} : Word κ → List Char
  | value text | unknown text | option _ _ _ text => text
  | separator => ['-', '-']

def Word.isOption {κ : Type} : Word κ → Bool
  | unknown _ | option .. => true
  | _ => false

/-- Why arguments do not fit a command. -/
inductive UsageError
  | ambiguous (text : List Char) (names : List (List Char))
  | expectedValue (title : List Char)
  | unexpectedValue (title value : List Char)
  | notAnInteger (title value : List Char)
  | notAChoice (title value : List Char) (choices : List (List Char))
  | missing (titles : List (List Char))
  | unrecognized (arguments : List (List Char))
  | tooFewJobs
deriving DecidableEq, Repr

def UsageError.message : UsageError → List Char
  | ambiguous text names =>
    "ambiguous option: ".toList ++ text ++ " could match ".toList ++ Text.joinWith ", ".toList names
  | expectedValue title => "argument ".toList ++ title ++ ": expected one argument".toList
  | unexpectedValue title value =>
    "argument ".toList ++ title ++ ": ignored explicit argument ".toList ++ Text.quoted value
  | notAnInteger title value =>
    "argument ".toList ++ title ++ ": invalid int value: ".toList ++ Text.quoted value
  | notAChoice title value choices =>
    "argument ".toList ++ title ++ ": invalid choice: ".toList ++ Text.quoted value
      ++ " (choose from ".toList ++ Text.joinWith ", ".toList (choices.map Text.quoted) ++ [')']
  | missing titles =>
    "the following arguments are required: ".toList ++ Text.joinWith ", ".toList titles
  | unrecognized arguments =>
    "unrecognized arguments: ".toList ++ Text.joinWith [' '] arguments
  | tooFewJobs => "--jobs must be at least 1".toList

/-- Why reading arguments ends early. -/
inductive Stop
  /-- Somebody asked for help. -/
  | help
  | usage (error : UsageError)
deriving DecidableEq, Repr

/-! ## Single arguments -/

/-- The option that has a name. -/
def withName? {κ : Type} (forms : List (OptionForm κ)) (name : List Char) :
    Option (OptionForm κ) :=
  forms.find? (·.names.contains name)

/-- The options and their names that a beginning fits, in order. -/
def beginningWith {κ : Type} (forms : List (OptionForm κ)) (beginning : List Char) :
    List (OptionForm κ × List Char) :=
  forms.flatMap fun f => (f.names.filter (beginning.isPrefixOf ·)).map fun name => (f, name)

/-- An argument cut at its first equals sign. -/
def cutAtEquals (t : List Char) : List Char × Option (List Char) :=
  match t.dropWhile (· != '=') with
  | [] => (t, none)
  | _ :: value => (t.takeWhile (· != '='), some value)

/-- The readings of an argument that is no option as it stands: one that begins with two dashes is
shortened, one with a single dash has a letter and a value. -/
def readings {κ : Type} (forms : List (OptionForm κ)) (t : List Char) :
    List (OptionForm κ × List Char × Option (List Char)) :=
  match t with
  | '-' :: '-' :: _ =>
    let (beginning, attached) := cutAtEquals t
    (beginningWith forms beginning).map fun (f, name) => (f, name, attached)
  | '-' :: c :: value =>
    forms.flatMap fun f => f.names.filterMap fun name =>
      if name = ['-', c] then some (f, name, some value)
      else if t.isPrefixOf name then some (f, name, none)
      else none
  | _ => []

def isDecimalDigit (c : Char) : Bool := (Text.decimalValue? c).isSome

/-- Whether an argument reads as a negative number: digits, or digits after a point. -/
def isNegativeNumber (t : List Char) : Bool :=
  match t with
  | '-' :: body =>
    let body := if body.getLast? = some '\n' then body.dropLast else body
    let fraction := body.dropWhile isDecimalDigit
    match fraction with
    | [] => !body.isEmpty
    | '.' :: ds => !ds.isEmpty && ds.all isDecimalDigit
    | _ => false
  | _ => false

/-- What an argument in front of a separator is. -/
def Word.ofText {κ : Type} (forms : List (OptionForm κ)) (t : List Char) :
    Except UsageError (Word κ) :=
  if t.head? ≠ some '-' then .ok (.value t)
  else match withName? forms t with
    | some f => .ok (.option f t none t)
    | none =>
      if t.length = 1 then .ok (.value t)
      else
        let (name, attached) := cutAtEquals t
        match attached, withName? forms name with
        | some a, some f => .ok (.option f name (some a) t)
        | _, _ =>
          match readings forms t with
          | [(f, name, attached)] => .ok (.option f name attached t)
          | [] => .ok (if isNegativeNumber t || t.contains ' ' then .value t else .unknown t)
          | rs => .error (.ambiguous t (rs.map (·.2.1)))

/-- What the arguments are. -/
def words {κ : Type} (forms : List (OptionForm κ)) :
    List (List Char) → Except UsageError (List (Word κ))
  | [] => .ok []
  | t :: rest =>
    if t = ['-', '-'] then .ok (.separator :: rest.map .value)
    else do return (← Word.ofText forms t) :: (← words forms rest)

/-! ## Options without a value -/

/-- What an option without a value does with what is attached to it.  Behind a single letter that
is further options, of which the first with a value takes the rest or needs `next`; an equals sign
in front of them makes no difference. -/
def checkAttached {κ : Type} (forms : List (OptionForm κ)) (next : Option (Word κ)) :
    Nat → OptionForm κ → List Char → Option (List Char) → Except UsageError Unit
  | 0, _, _, _ => .ok ()
  | steps + 1, f, name, attached =>
    match f.takesValue, attached with
    | true, some _ => .ok ()
    | true, none =>
      match next with
      | some (.value _) => .ok ()
      | _ => .error (.expectedValue f.title)
    | false, none => .ok ()
    | false, some t =>
      match name, t with
      | ['-', _], c :: rest =>
        match withName? forms ['-', c] with
        | none => .error (.unexpectedValue f.title t)
        | some f =>
          checkAttached forms next steps f ['-', c] (if rest.isEmpty then none else some rest)
      | _, _ => .error (.unexpectedValue f.title t)

end Interop.Command
