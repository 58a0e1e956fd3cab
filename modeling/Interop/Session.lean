import Interop.Files.Store
import Interop.Log.Journal
import Interop.Log.Remark

/-!
# Sessions

A session is everything that the program can change, files, journal and what it has printed, next
to the surroundings that it finds.  An action of the program runs in `Session.Action`; one that
fails leaves what it had already done.
-/

set_option autoImplicit false

namespace Interop

/-- What a session finds and does not change. -/
structure Surroundings where
  /-- The moment that log files are named after. -/
  moment : Moment
  homes : Homes
  /-- The length of the longest text that there is room for. -/
  room : Nat
  /-- The path of a configuration file that the environment names; empty for none. -/
  configPath : List Char
  outputIsTerminal : Bool
  errorsIsTerminal : Bool
deriving DecidableEq, Repr

structure Session where
  surroundings : Surroundings
  files : Store
  journal : Log.Journal
  /-- What went to standard output. -/
  output : List Char
  /-- What went to standard error. -/
  errors : List Char
deriving Repr

namespace Session

/-- A session in which nothing has happened. -/
def start (surroundings : Surroundings) (files : Store) : Session :=
  { surroundings, files, journal := .fresh, output := [], errors := [] }

/-- An action of the program. -/
abbrev Action (ε : Type) := EStateM ε Session

def print (s : Session) (t : List Char) : Session := { s with output := s.output ++ t }

def complain (s : Session) (t : List Char) : Session := { s with errors := s.errors ++ t }

/-- Puts a delivery where it goes. -/
def deliver (s : Session) : Log.Delivery → Session
  | .output t => s.print t
  | .errors t => s.complain t
  | .file place t => { s with files := s.files.appendAt place (Text.encode t) }

/-- Logs a record. -/
def record (s : Session) (r : Log.Record) : Session :=
  (s.journal.deliveries r).foldl deliver s

/-- Logs a remark. -/
def remark (s : Session) (r : Log.Remark) : Session :=
  match r.record? s.surroundings.room with
  | some r => s.record r
  | none => s

/-- Changes the files, with the errors as those of the action. -/
def change {ε α : Type} (wrap : FileError → ε) (c : Store.Change α) : Action ε α := fun s =>
  match c s.files with
  | .ok a files => .ok a { s with files }
  | .error e files => .error (wrap e) { s with files }

/-- What an outcome that changes nothing gives. -/
def settle {ε α : Type} : Except ε α → Action ε α
  | .ok a => pure a
  | .error e => throw e

end Session

end Interop
