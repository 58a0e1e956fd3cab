import Interop.Text.Lines
import Interop.Toml.Lexeme
import Interop.Toml.Table

/-!
# Reading TOML

A document is a sequence of statements, one to a line, and gives the table that they build.  This is
the reader that the program is run with, for the edition 1.1; nothing else depends on its edition,
since a configuration is loaded with any `Reader`.

As in the reader of JSON, values are read on a budget that every value and every item of a
container lowers by one; twice the length of the text is always enough.
-/

set_option autoImplicit false

namespace Interop.Toml

/-! ## Values -/

/-- A value that is no string, array or table. -/
def scalar (t : List Char) : Except Failure (Value × List Char) :=
  match t with
  | 't' :: 'r' :: 'u' :: 'e' :: rest => .ok (.bool true, rest)
  | 'f' :: 'a' :: 'l' :: 's' :: 'e' :: rest => .ok (.bool false, rest)
  | _ =>
    match stamp? t with
    | some r => r.map fun (s, left) => (.stamp s, left)
    | none =>
      match number? t with
      | some r => r.map fun (n, left) => (.number n, left)
      | none => fail

mutual

/-- Reads a value that begins here. -/
def value : Nat → List Char → Except Failure (Value × List Char)
  | 0, _ => fail
  | budget + 1, t =>
    match string? t with
    | some r => r.map fun (s, left) => (.text s, left)
    | none =>
      match t with
      | '[' :: rest => do
        match ← skipBetween rest with
        | ']' :: left => return (.list [], left)
        | inside =>
          let (items, left) ← arrayItems budget inside
          return (.list items, left)
      | '\x7b' :: rest => do
        match ← skipBetween rest with
        | '\x7d' :: left => return (.table [], left)
        | inside =>
          let (settings, left) ← inlineSettings budget inside
          match inlineTable settings with
          | some entries => return (.table entries, left)
          | none => fail
      | _ => scalar t

/-- The items of an array, the next of which begins here; a comma after the last is allowed. -/
def arrayItems : Nat → List Char → Except Failure (List Value × List Char)
  | 0, _ => fail
  | budget + 1, t => do
    let (item, left) ← value budget t
    match ← skipBetween left with
    | ']' :: left => return ([item], left)
    | ',' :: left =>
      match ← skipBetween left with
      | ']' :: left => return ([item], left)
      | next =>
        let (items, left) ← arrayItems budget next
        return (item :: items, left)
    | _ => fail

/-- The settings of an inline table, the next of which begins here; a comma after the last is
allowed. -/
def inlineSettings : Nat → List Char → Except Failure (List (KeyPath × Value) × List Char)
  | 0, _ => fail
  | budget + 1, t => do
    let (path, left) ← key t
    match left with
    | '=' :: left =>
      let (item, left) ← value budget (skipSpace left)
      match ← skipBetween left with
      | '\x7d' :: left => return ([(path, item)], left)
      | ',' :: left =>
        match ← skipBetween left with
        | '\x7d' :: left => return ([(path, item)], left)
        | next =>
          let (settings, left) ← inlineSettings budget next
          return ((path, item) :: settings, left)
      | _ => fail
    | _ => fail

end

/-! ## Statements -/

/-- The statement that begins here. -/
def statement (t : List Char) : Except Failure (Statement × List Char) :=
  match t with
  | '[' :: '[' :: rest => do
    let (path, left) ← key (skipSpace rest)
    match left with
    | ']' :: ']' :: left => return (.arrayItem path, left)
    | _ => fail
  | '[' :: rest => do
    let (path, left) ← key (skipSpace rest)
    match left with
    | ']' :: left => return (.table path, left)
    | _ => fail
  | _ => do
    let (path, left) ← key t
    match left with
    | '=' :: left =>
      let (v, left) ← value (2 * t.length + 2) (skipSpace left)
      return (.setting path v, left)
    | _ => fail

/-- The rest of a line after its statement: a comment or nothing. -/
def endOfLine (t : List Char) : Except Failure (List Char) := do
  match ← skipComment (skipSpace t) with
  | [] => return []
  | '\n' :: rest => return rest
  | _ => fail

/-- Reads lines into a draft.  Each line takes a step. -/
def lines : Nat → Draft → List Char → Except Failure Draft
  | 0, d, _ => .ok d
  | steps + 1, d, t =>
    match skipSpace t with
    | [] => .ok d
    | '\n' :: rest => lines steps d rest
    | '#' :: rest => do lines steps d (← endOfLine ('#' :: rest))
    | t => do
      let (s, left) ← statement t
      match d.step s with
      | none => fail
      | some d => lines steps d (← endOfLine left)

/-- The table of a document. -/
def read : Reader := fun t => do
  let t := Text.unixNewlines t
  return (← lines (t.length + 1) .empty t).entries

end Interop.Toml
