import Interop.Text.Blank
import Interop.Text.Lines
import Interop.Text.Quoted

/-!
# Paths

A path as people write it is a text; `Path` is what it says: an anchor and a list of names.  Empty
names and single dots say nothing and are dropped, double dots are kept.  Two slashes at the front
are an anchor of their own.

`Path.resolve` gives the place that a path leads to from a working directory when there are no
links: double dots go up by one name, and at the top they stay.
-/

set_option autoImplicit false

namespace Interop

/-- Where a path begins. -/
inductive Anchor
  /-- The working directory. -/
  | here
  /-- The top. -/
  | root
  /-- Two slashes. -/
  | doubleRoot
deriving DecidableEq, Repr

structure Path where
  anchor : Anchor
  names : List (List Char)
deriving DecidableEq, Repr

/-- The names on the way from the top to a file or a directory. -/
abbrev Place := List (List Char)

namespace Path

def Anchor.text : Anchor → List Char
  | .here => []
  | .root => ['/']
  | .doubleRoot => ['/', '/']

/-- The pieces of a path text that say something. -/
def namesOf (t : List Char) : List (List Char) :=
  (Text.splitOn '/' t).filter fun name => !name.isEmpty && name != ['.']

def anchorOf (t : List Char) : Anchor :=
  match (t.takeWhile (· == '/')).length with
  | 0 => .here
  | 2 => .doubleRoot
  | _ => .root

def ofText (t : List Char) : Path := ⟨anchorOf t, namesOf t⟩

def toText (p : Path) : List Char :=
  if p.anchor = .here ∧ p.names = [] then ['.']
  else Anchor.text p.anchor ++ Text.joinWith ['/'] p.names

/-- The last name; there may be none. -/
def name (p : Path) : List Char := p.names.getLast?.getD []

/-- The name without its last suffix.  A dot that begins or ends the name begins no suffix. -/
def stemOf (name : List Char) : List Char :=
  match name.reverse.dropWhile (· != '.') with
  | [] => name
  | _ :: before =>
    if before = [] ∨ before.length + 1 = name.length then name else before.reverse

def stem (p : Path) : List Char := stemOf p.name

/-- The path with another last name; there has to be one already. -/
def withName? (p : Path) (name : List Char) : Option Path :=
  if p.names = [] then none else some { p with names := p.names.dropLast ++ [name] }

/-- One step from a place. -/
def step (place : Place) (name : List Char) : Place :=
  if name = ['.', '.'] then place.dropLast else place ++ [name]

/-- The place that a path leads to from a working directory. -/
def resolve (cwd : Place) (p : Path) : Place :=
  p.names.foldl step (if p.anchor = .here then cwd else [])

/-- The text of a place. -/
def placeText (place : Place) : List Char := '/' :: Text.joinWith ['/'] place

/-- The absolute text of a path text, with dots resolved.  Two slashes at the front stay. -/
def absoluteText (cwd : Place) (t : List Char) : List Char :=
  let p := ofText t
  let text := placeText (p.resolve cwd)
  if p.anchor = .doubleRoot then '/' :: text else text

/-! ## The parts of a path text

Here a path is cut at its last slash, without being read. -/

/-- Splits a path text at its last slash.  Slashes at the end of the first part are dropped, unless
it has nothing else. -/
def split (t : List Char) : List Char × List Char :=
  let tail := (t.reverse.takeWhile (· != '/')).reverse
  let head := t.take (t.length - tail.length)
  (if head.all (· == '/') then head else Text.dropWhileEnd (· == '/') head, tail)

/-- What stands before the last name of a path text. -/
def directoryOf (t : List Char) : List Char := (split t).1

/-- A path text continued by another; one that begins with a slash begins anew. -/
def join (t next : List Char) : List Char :=
  if next.head? = some '/' then next
  else if t = [] ∨ t.getLast? = some '/' then t ++ next
  else t ++ '/' :: next

/-- A path text without the suffix of its last name.  Dots at the beginning of the name begin no
suffix. -/
def dropSuffix (t : List Char) : List Char :=
  let name := (t.reverse.takeWhile (· != '/')).reverse
  let body := name.dropWhile (· == '.')
  match body.reverse.dropWhile (· != '.') with
  | [] => t
  | dot => t.take (t.length - (body.length - dot.length) - 1)

/-! ## Home directories

A path that begins with a tilde begins in a home directory: the one of the user whose name stands
behind the tilde, or the user's own. -/

/-- The user in whose home directory a path begins; without a name, whoever runs the program. -/
def homeOwner? (p : Path) : Option (List Char) :=
  match p.anchor, p.names with
  | .here, ('~' :: user) :: _ => some user
  | _, _ => none

end Path

/-- Where home directories are. -/
structure Homes where
  /-- What the environment says of the user's own, which counts before what is on record. -/
  inherited : Option (List Char)
  /-- The user's own as it is on record. -/
  own : Option (List Char)
  /-- The home directories on record by the names of their users. -/
  named : List (List Char × List Char)
deriving DecidableEq, Repr

/-- The home directory of a user; without a name, of whoever runs the program. -/
def Homes.of? (homes : Homes) (user : List Char) : Option (List Char) :=
  if user = [] then homes.inherited.or homes.own else homes.named.lookup user

/-- A path with the home directory that it begins in put in the place of its first name.  There is
none for a user who has no home directory, or one that begins with a tilde itself. -/
def Path.expandHome? (homes : Homes) (p : Path) : Option Path :=
  match p.homeOwner? with
  | none => some p
  | some user => do
    match Text.dropWhileEnd (· == '/') (← homes.of? user) with
    | [] => some { ofText ['/'] with names := p.names.drop 1 }
    | '~' :: _ => none
    | home => some { ofText home with names := namesOf home ++ p.names.drop 1 }

end Interop
