import Interop.Value.Basic

/-!
# Tables under construction

A document builds one table, setting by setting.  A table that a header has opened, or that dotted
keys of another section have opened, cannot be opened by a header again; a value that is an array
or an inline table cannot be extended at all.  `Marks` remembers which paths are so marked.
-/

set_option autoImplicit false

namespace Interop.Toml

open Value (Entries)

/-- A path of keys from the top of the document. -/
abbrev KeyPath := List String

structure Marks where
  /-- Tables that cannot be opened by a header any more. -/
  opened : List KeyPath
  /-- Tables that become `opened` at the next header. -/
  pending : List KeyPath
  /-- Values that cannot be extended, nor anything below them. -/
  frozen : List KeyPath
deriving Repr

def Marks.empty : Marks := ⟨[], [], []⟩

def Marks.isOpened (m : Marks) (path : KeyPath) : Bool := m.opened.contains path

def Marks.isFrozen (m : Marks) (path : KeyPath) : Bool := m.frozen.any (·.isPrefixOf path)

/-- The marks with those of a path and all below it taken away. -/
def Marks.forget (m : Marks) (path : KeyPath) : Marks :=
  { m with
    opened := m.opened.filter fun p => !path.isPrefixOf p
    frozen := m.frozen.filter fun p => !path.isPrefixOf p }

/-- Changes the table at a path.  Tables on the way that are missing are made; an array of tables
stands for its last one. -/
def changeAt (change : Entries → Option Entries) : KeyPath → Entries → Option Entries
  | [], entries => change entries
  | key :: path, entries =>
    match Value.lookup key entries with
    | none => do
      let inner ← changeAt change path []
      return Value.insert key (.table inner) entries
    | some (.table inner) => do
      let inner ← changeAt change path inner
      return Value.insert key (.table inner) entries
    | some (.list items) =>
      match items.reverse with
      | .table last :: before => do
        let last ← changeAt change path last
        return Value.insert key (.list (before.reverse ++ [.table last])) entries
      | _ => none
    | some _ => none

/-- Sets a key that is not there yet. -/
def setNew (key : String) (value : Value) (entries : Entries) : Option Entries :=
  match Value.lookup key entries with
  | none => some (entries ++ [(key, value)])
  | some _ => none

/-- Adds an empty table to an array of tables. -/
def appendTable (key : String) (entries : Entries) : Option Entries :=
  match Value.lookup key entries with
  | none => some (entries ++ [(key, .list [.table []])])
  | some (.list items) => some (Value.insert key (.list (items ++ [.table []])) entries)
  | some _ => none

/-- Whether a value cannot be extended once it is set. -/
def isClosed : Value → Bool
  | .table _ | .list _ => true
  | _ => false

/-! ## Inline tables -/

/-- The table of the settings between braces, each a path with its value. -/
def inlineTable (settings : List (KeyPath × Value)) : Option Entries := do
  let (entries, _) ← settings.foldlM (fun (entries, frozen) (path, value) => do
    if frozen.any (·.isPrefixOf path) then none
    else
      let name ← path.getLast?
      let entries ← changeAt (setNew name value) path.dropLast entries
      return (entries, if isClosed value then path :: frozen else frozen))
    (([], []) : Entries × List KeyPath)
  return entries

/-! ## Documents -/

/-- A statement of a document. -/
inductive Statement
  | table (path : KeyPath)
  | arrayItem (path : KeyPath)
  | setting (path : KeyPath) (value : Value)
deriving Repr

/-- A document read so far. -/
structure Draft where
  entries : Entries
  marks : Marks
  /-- The table that settings go to. -/
  header : KeyPath
deriving Repr

def Draft.empty : Draft := ⟨[], .empty, []⟩

/-- At a header the pending marks take effect. -/
def Marks.settle (m : Marks) : Marks := { m with opened := m.pending ++ m.opened, pending := [] }

def Draft.openTable (d : Draft) (path : KeyPath) : Option Draft := do
  let marks := d.marks.settle
  if marks.isOpened path || marks.isFrozen path then none
  else
    let entries ← changeAt some path d.entries
    return ⟨entries, { marks with opened := path :: marks.opened }, path⟩

def Draft.openItem (d : Draft) (path : KeyPath) : Option Draft := do
  let marks := d.marks.settle
  if marks.isFrozen path then none
  else
    let marks := marks.forget path
    let name ← path.getLast?
    let entries ← changeAt (appendTable name) path.dropLast d.entries
    return ⟨entries, { marks with opened := path :: marks.opened }, path⟩

/-- The proper prefixes of a path that are not empty, under a header. -/
def innerPaths (header path : KeyPath) : List KeyPath :=
  (List.range (path.length - 1)).map fun i => header ++ path.take (i + 1)

def Draft.set (d : Draft) (path : KeyPath) (value : Value) : Option Draft := do
  let inner := innerPaths d.header path
  if inner.any d.marks.isOpened then none
  else
    let parent := d.header ++ path.dropLast
    if d.marks.isFrozen parent then none
    else
      let name ← path.getLast?
      let entries ← changeAt (setNew name value) parent d.entries
      let marks := { d.marks with pending := inner ++ d.marks.pending }
      let closed := if isClosed value then [d.header ++ path] else []
      let marks := { marks with frozen := closed ++ marks.frozen }
      return { d with entries, marks }

def Draft.step (d : Draft) : Statement → Option Draft
  | .table path => d.openTable path
  | .arrayItem path => d.openItem path
  | .setting path value => d.set path value

end Interop.Toml
