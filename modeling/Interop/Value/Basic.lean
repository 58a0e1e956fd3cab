import Interop.Number.Basic
import Interop.Text.Quoted
import Interop.Text.Lines
import Interop.Time.Stamp

/-!
# Values of a document

What a configuration file or a model file says before it is read as anything in particular: the
values of JSON and of TOML, with tables as lists of entries in the order of the document.  A
table is looked up from the front; a table that a reader or an update builds holds every key once
(`insert` keeps the place of a key it replaces).

A value has two spellings in messages and generated text.  The plain one (`plainText`) gives a
text as it is; the quoted one (`quotedText`) is what stands inside lists and tables.
-/

set_option autoImplicit false

namespace Interop

inductive Value
  | null
  | bool (b : Bool)
  | number (n : Number)
  | text (s : String)
  | stamp (s : Stamp)
  | list (items : List Value)
  | table (entries : List (String × Value))
deriving Repr, Inhabited

namespace Value

/-- A value that is an integer. -/
def int (n : Int) : Value := .number (.int n)

/-- The name of a value's kind in messages. -/
def kindName : Value → String
  | null => "NoneType"
  | bool _ => "bool"
  | number (.int _) => "int"
  | number (.double _) => "float"
  | text _ => "str"
  | stamp s => s.kind
  | list _ => "list"
  | table _ => "dict"

/-- The same without the family that a kind belongs to. -/
def shortKindName : Value → String
  | stamp s => s.shortKind
  | v => v.kindName

/-- Whether a value counts as something: null, false, zero and what is empty do not. -/
def isTruthy : Value → Bool
  | null => false
  | bool b => b
  | number n => !n.isZero
  | text s => !s.isEmpty
  | stamp _ => true
  | list items => !items.isEmpty
  | table entries => !entries.isEmpty

/-! ## Tables -/

/-- The entries of a table, in order. -/
abbrev Entries := List (String × Value)

/-- The value of a key. -/
def lookup (key : String) : Entries → Option Value
  | [] => none
  | (k, v) :: rest => if k = key then some v else lookup key rest

/-- Sets a key, at its place if it has one and at the end if not. -/
def insert (key : String) (value : Value) : Entries → Entries
  | [] => [(key, value)]
  | (k, v) :: rest => if k = key then (k, value) :: rest else (k, v) :: insert key value rest

/-- The entries that a sequence of settings leaves: each key once, at the place of its first
setting and with the value of its last. -/
def ofSettings (settings : Entries) : Entries :=
  settings.foldl (fun entries (k, v) => insert k v entries) []

theorem lookup_insert_self (key : String) (value : Value) (entries : Entries) :
    lookup key (insert key value entries) = some value := by
  induction entries with
  | nil => simp [insert, lookup]
  | cons e rest ih =>
    obtain ⟨k, v⟩ := e
    by_cases h : k = key <;> simp [insert, lookup, h, ih]

theorem lookup_insert_of_ne {key other : String} (h : other ≠ key) (value : Value)
    (entries : Entries) :
    lookup other (insert key value entries) = lookup other entries := by
  induction entries with
  | nil => simp [insert, lookup, Ne.symm h]
  | cons e rest ih =>
    obtain ⟨k, v⟩ := e
    by_cases hk : k = key
    · subst hk; simp [insert, lookup, Ne.symm h]
    · simp [insert, lookup, hk, ih]

/-! ## Text -/

mutual

/-- A value as it stands inside a list or a table. -/
def quotedText : Value → Except NumberFault (List Char)
  | null => .ok "None".toList
  | bool true => .ok "True".toList
  | bool false => .ok "False".toList
  | number n => n.text
  | text s => .ok (Text.quoted s.toList)
  | stamp s => .ok s.quotedText
  | list items => do
    return '[' :: Text.joinWith [',', ' '] (← itemTexts items) ++ [']']
  | table entries => do
    return '\x7b' :: Text.joinWith [',', ' '] (← entryTexts entries) ++ ['\x7d']

def itemTexts : List Value → Except NumberFault (List (List Char))
  | [] => .ok []
  | v :: rest => do return (← quotedText v) :: (← itemTexts rest)

def entryTexts : List (String × Value) → Except NumberFault (List (List Char))
  | [] => .ok []
  | (k, v) :: rest => do
    return (Text.quoted k.toList ++ ':' :: ' ' :: (← quotedText v)) :: (← entryTexts rest)

end

/-- A value by itself: a text as it is, a date or a time in its plain form, anything else as inside
a list. -/
def plainText : Value → Except NumberFault (List Char)
  | text s => .ok s.toList
  | stamp s => .ok s.text
  | v => quotedText v

end Value

end Interop
