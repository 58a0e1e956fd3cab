import Interop.Files.Path
import Interop.Text.Utf8

/-!
# A tree of files

A store is a working directory and what there is at each place: a file with its bytes, or a
directory.  A path text is followed name by name from the working directory or from the top; every
name but the last has to be a directory, and a slash at the end asks for a directory too.

Operations that change a store run in `Change`; one that fails leaves what it had already done.

Real trees have more to them.  Here there are no links, so a path leads to one place and never in a
circle; nothing is forbidden and the disk is never full; names are made of characters, as are the
texts that are written.  A file that can be opened is therefore written as a whole, and no operation
stops where the old bytes are gone and the new ones are not all there.
-/

set_option autoImplicit false

namespace Interop

open Text (Bytes)

inductive Entry
  | file (bytes : Bytes)
  | directory
deriving DecidableEq, Repr

structure Store where
  cwd : Place
  entries : List (Place × Entry)
deriving Repr

/-- Why an operation on files fails, and the path text that it was given. -/
inductive FileError
  | notFound (path : List Char)
  | alreadyExists (path : List Char)
  | notADirectory (path : List Char)
  | isADirectory (path : List Char)
  | nameTooLong (path : List Char)
  | embeddedNull
deriving DecidableEq, Repr

def FileError.message : FileError → List Char
  | notFound path => "[Errno 2] No such file or directory: ".toList ++ Text.quoted path
  | alreadyExists path => "[Errno 17] File exists: ".toList ++ Text.quoted path
  | notADirectory path => "[Errno 20] Not a directory: ".toList ++ Text.quoted path
  | isADirectory path => "[Errno 21] Is a directory: ".toList ++ Text.quoted path
  | nameTooLong path => "[Errno 36] File name too long: ".toList ++ Text.quoted path
  | embeddedNull => "embedded null byte".toList

namespace Store

/-! ## Places -/

/-- What there is at a place; the top is always a directory. -/
def get? (s : Store) (place : Place) : Option Entry :=
  if place = [] then some .directory else s.entries.lookup place

/-- Entries with another one at a place. -/
def setEntry (place : Place) (entry : Entry) : List (Place × Entry) → List (Place × Entry)
  | [] => [(place, entry)]
  | (p, e) :: rest => if p = place then (p, entry) :: rest else (p, e) :: setEntry place entry rest

def set (s : Store) (place : Place) (entry : Entry) : Store :=
  { s with entries := setEntry place entry s.entries }

theorem lookup_setEntry (place other : Place) (entry : Entry) (entries : List (Place × Entry)) :
    (setEntry place entry entries).lookup other
      = if other = place then some entry else entries.lookup other := by
  induction entries with
  | nil =>
    by_cases h : other = place
    · simp [setEntry, h]
    · simp [setEntry, List.lookup_cons, h, beq_eq_false_iff_ne.mpr h]
  | cons e rest ih =>
    obtain ⟨p, old⟩ := e
    by_cases hp : p = place
    · subst hp
      by_cases h : other = p
      · simp [setEntry, h]
      · simp [setEntry, List.lookup_cons, h, beq_eq_false_iff_ne.mpr h]
    · by_cases h : other = p
      · subst h; simp [setEntry, hp]
      · simp [setEntry, List.lookup_cons, hp, beq_eq_false_iff_ne.mpr h, ih]

/-- Setting an entry changes what there is at that place alone. -/
theorem get?_set (s : Store) {place : Place} (h : place ≠ []) (entry : Entry) (other : Place) :
    (s.set place entry).get? other = if other = place then some entry else s.get? other := by
  by_cases top : other = []
  · simp [get?, top, h.symm]
  · simp [get?, set, top, lookup_setEntry]

/-! ## Following a path -/

/-- Where a path leads. -/
inductive Target
  | found (place : Place) (entry : Entry)
  /-- Nothing is there, but all directories on the way are. -/
  | vacant (place : Place)
  /-- A directory on the way is missing. -/
  | lost
  /-- Something on the way is a file. -/
  | blocked
  | tooLong
deriving DecidableEq, Repr

/-- The most bytes that a name may have. -/
def nameLimit : Nat := 255

/-- Follows names from a directory.  A single dot stays there, double dots go up. -/
def follow (s : Store) (directory : Place) : List (List Char) → Target
  | [] => .found directory .directory
  | name :: rest =>
    if name = ['.'] then s.follow directory rest
    else if name = ['.', '.'] then s.follow directory.dropLast rest
    else if nameLimit < (Text.encode name).length then .tooLong
    else
      let place := directory ++ [name]
      match s.get? place with
      | none => if rest = [] then .vacant place else .lost
      | some (.file bytes) => if rest = [] then .found place (.file bytes) else .blocked
      | some .directory => s.follow place rest

/-- The most bytes that a path may have. -/
def pathLimit : Nat := 4095

/-- Where a path text leads, a slash at its end not considered. -/
def locate (s : Store) (path : List Char) : Except FileError Target :=
  if path.contains '\x00' then .error .embeddedNull
  else if path = [] then .ok .lost
  else if pathLimit < (Text.encode path).length then .ok .tooLong
  else
    let start := if path.head? = some '/' then [] else s.cwd
    .ok (s.follow start ((Text.splitOn '/' path).filter (!·.isEmpty)))

def endsInSlash (path : List Char) : Bool := path.getLast? == some '/'

/-- What is there, if anything is. -/
def entry? (s : Store) (path : List Char) : Option Entry :=
  match s.locate path with
  | .ok (.found _ (.file bytes)) => if endsInSlash path then none else some (.file bytes)
  | .ok (.found _ .directory) => some .directory
  | _ => none

def isThere (s : Store) (path : List Char) : Bool := (s.entry? path).isSome

def isDirectory (s : Store) (path : List Char) : Bool := s.entry? path == some .directory

/-- The bytes of a file; none if there is no file.  A name that is too long is an error. -/
def readFile? (s : Store) (path : List Char) : Except FileError (Option Bytes) :=
  match s.locate path, s.entry? path with
  | .ok .tooLong, _ => .error (.nameTooLong path)
  | _, some (.file bytes) => .ok (some bytes)
  | _, _ => .ok none

/-! ## Changes -/

/-- An operation on a store. -/
abbrev Change := EStateM FileError Store

/-- Where a path leads that something is to be put at. -/
def target (path : List Char) : Change Target := do
  match (← get).locate path with
  | .error e => throw e
  | .ok .lost => throw (.notFound path)
  | .ok .blocked => throw (.notADirectory path)
  | .ok .tooLong => throw (.nameTooLong path)
  | .ok t => return t

/-- Makes one directory. -/
def makeDirectory (path : List Char) : Change Unit := do
  match ← target path with
  | .vacant place => modify (·.set place .directory)
  | _ => throw (.alreadyExists path)

/-- Makes a directory unless there is one. -/
def ensureDirectory (path : List Char) : Change Unit :=
  tryCatch (makeDirectory path) fun e => do
    if e = .embeddedNull ∨ !(← get).isDirectory path then throw e

/-- Makes a directory and those before it that are missing.  Whether a file is in the way matters
at the last name alone; before it the next step will find out.  The path gets shorter with every
step back, so its length bounds their number. -/
def ensureDirectories : Nat → List Char → Change Unit
  | 0, path => ensureDirectory path
  | steps + 1, path => do
    let (head, tail) := Path.split path
    let (head, tail) := if tail = [] then Path.split head else (head, tail)
    if head ≠ [] ∧ tail ≠ [] ∧ !(← get).isThere head then
      tryCatch (ensureDirectories steps head) fun
        | .alreadyExists _ => return
        | e => throw e
      if tail = ['.'] then return
    ensureDirectory path

/-- Opens a file for writing: gives its place and, if it is there, its bytes. -/
def openFile (path : List Char) : Change (Place × Option Bytes) := do
  match ← target path with
  | .found place (.file bytes) =>
    if endsInSlash path then throw (.isADirectory path) else return (place, some bytes)
  | .vacant place =>
    if endsInSlash path then throw (.isADirectory path) else return (place, none)
  | _ => throw (.isADirectory path)

/-- Writes a file, over what it held. -/
def writeFile (path : List Char) (bytes : Bytes) : Change Unit := do
  let (place, _) ← openFile path
  modify (·.set place (.file bytes))

/-- Makes sure that there is a file to write at the end of, and gives its place.  One that is not
there begins empty. -/
def openToAppend (path : List Char) : Change Place := do
  let (place, old) ← openFile path
  modify (·.set place (.file (old.getD [])))
  return place

/-- Writes at the end of the file at a place. -/
def appendAt (s : Store) (place : Place) (bytes : Bytes) : Store :=
  match s.get? place with
  | some (.file old) => s.set place (.file (old ++ bytes))
  | _ => s.set place (.file bytes)

/-- Writes a text to a file and makes the directories before it. -/
def save (path text : List Char) : Change Unit := do
  let directory := Path.directoryOf path
  if directory ≠ [] then ensureDirectories directory.length directory
  writeFile path (Text.encode text)

end Store

end Interop
