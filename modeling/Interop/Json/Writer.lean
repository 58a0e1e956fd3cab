import Interop.Fault

/-!
# Writing JSON

A value is written on one line, with a space after each comma and colon, or over many lines with
two spaces for each level of nesting.  Text is written in ASCII alone, a character beyond it by
its sixteen-bit units, or with such characters as they are.  In both forms quotes, backslashes
and the control characters below the space are escaped; U+007F is escaped in ASCII alone.
-/

set_option autoImplicit false

namespace Interop.Json

/-- How a value is laid out and spelled. -/
structure Style where
  /-- Over many lines. -/
  multiline : Bool
  /-- In ASCII alone. -/
  ascii : Bool
deriving DecidableEq, Repr

/-- Four hexadecimal digits of a unit. -/
def unitEscape (code : Nat) : List Char := '\\' :: 'u' :: Text.hexDigits 4 code

/-- A character inside a string. -/
def escapeChar (ascii : Bool) (c : Char) : List Char :=
  let n := c.toNat
  if c = '"' then ['\\', '"']
  else if c = '\\' then ['\\', '\\']
  else if c = '\n' then ['\\', 'n']
  else if c = '\r' then ['\\', 'r']
  else if c = '\t' then ['\\', 't']
  else if n = 8 then ['\\', 'b']
  else if n = 12 then ['\\', 'f']
  else if n < 0x20 then unitEscape n
  else if n < 0x7F ∨ ascii = false then [c]
  else if n < 0x10000 then unitEscape n
  else
    unitEscape (0xD800 + (n - 0x10000) / 0x400) ++ unitEscape (0xDC00 + (n - 0x10000) % 0x400)

def stringText (ascii : Bool) (s : String) : List Char :=
  '"' :: s.toList.flatMap (escapeChar ascii) ++ ['"']

def numberText : Number → Except NumberFault (List Char)
  | .double .nan => .ok "NaN".toList
  | .double (.infinite false) => .ok "Infinity".toList
  | .double (.infinite true) => .ok "-Infinity".toList
  | n => n.text

/-- A newline and the space before an item at a depth. -/
def newline (depth : Nat) : List Char := '\n' :: List.replicate (2 * depth) ' '

/-- Items between brackets. -/
def enclose (style : Style) (depth : Nat) (opening closing : Char) (items : List (List Char)) :
    List Char :=
  if items = [] then [opening, closing]
  else if style.multiline then
    opening :: newline (depth + 1) ++ Text.joinWith (',' :: newline (depth + 1)) items
      ++ newline depth ++ [closing]
  else opening :: Text.joinWith [',', ' '] items ++ [closing]

mutual

/-- A value at a depth of nesting. -/
def valueText (style : Style) (depth : Nat) : Value → Except Fault (List Char)
  | .null => .ok "null".toList
  | .bool true => .ok "true".toList
  | .bool false => .ok "false".toList
  | .number n => (numberText n).mapError .number
  | .text s => .ok (stringText style.ascii s)
  | .stamp s => .error (.notInJson s.shortKind)
  | .list items => do
    return enclose style depth '[' ']' (← itemTexts style (depth + 1) items)
  | .table entries => do
    return enclose style depth '\x7b' '\x7d' (← memberTexts style (depth + 1) entries)

def itemTexts (style : Style) (depth : Nat) :
    List Value → Except Fault (List (List Char))
  | [] => .ok []
  | v :: rest => do return (← valueText style depth v) :: (← itemTexts style depth rest)

def memberTexts (style : Style) (depth : Nat) :
    List (String × Value) → Except Fault (List (List Char))
  | [] => .ok []
  | (k, v) :: rest => do
    let member := stringText style.ascii k ++ ':' :: ' ' :: (← valueText style depth v)
    return member :: (← memberTexts style depth rest)

end

/-- The text of a value. -/
def write (style : Style) (v : Value) : Except Fault (List Char) := valueText style 0 v

end Interop.Json
