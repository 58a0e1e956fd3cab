import Interop.Json.Writer
import Interop.Log.Level
import Interop.Time.Format

/-!
# Records

A record is one message of one logger at a level, with the error that caused it if there is one.
It has three spellings: the bare message, a line of a text log and a line of JSON.

Logs are reproducible: a line carries the epoch where others put the time, and line zero where
others put the place in a program.
-/

set_option autoImplicit false

namespace Interop.Log

/-- The name above all loggers. -/
def rootName : List Char := "c2cs".toList

/-- The full name of a logger: every name that is not below the root already is put below it. -/
def loggerName (name : List Char) : List Char :=
  if name = [] then rootName
  else if name = rootName ∨ (rootName ++ ['.']).isPrefixOf name then name
  else rootName ++ '.' :: name

/-- An error that a record is about. -/
structure Cause where
  kind : List Char
  text : List Char
deriving DecidableEq, Repr

def Cause.message (c : Cause) : List Char :=
  if c.text = [] then c.kind else c.kind ++ ": ".toList ++ c.text

structure Record where
  level : Int
  logger : List Char
  message : List Char
  cause : Option Cause
deriving DecidableEq, Repr

namespace Record

/-- The time that every record carries. -/
def time : List Char := Moment.epoch.format "%Y-%m-%d %H:%M:%S".toList

def levelName (r : Record) : List Char := (Level.name r.level).toList

/-- A text and the cause of the record, on a line of its own. -/
def withCause (r : Record) (t : List Char) : List Char :=
  match r.cause with
  | none => t
  | some c => (if t.getLast? = some '\n' then t else t ++ ['\n']) ++ c.message

/-- The message alone. -/
def bareText (r : Record) : List Char := r.withCause r.message

/-- A line of a text log.  Names of levels are filled up to eight characters. -/
def lineText (r : Record) : List Char :=
  let level := r.levelName ++ List.replicate (8 - r.levelName.length) ' '
  r.withCause (Text.joinWith " | ".toList
    [time, level, r.logger ++ ":0".toList, r.message])

/-- What a line of JSON says. -/
def fields (r : Record) : Value.Entries :=
  let text (t : List Char) : Value := .text (String.ofList t)
  [("timestamp", text time), ("level", text r.levelName), ("logger", text r.logger),
   ("message", text r.message), ("lineno", .int 0)]
    ++ (r.cause.map fun c => ("exc_info", text c.message)).toList

/-- A line of JSON. -/
def jsonText (r : Record) : List Char :=
  match Json.write ⟨false, false⟩ (.table r.fields) with
  | .ok t => t
  | .error _ => []

/-- The colour of a level on a terminal. -/
def colour? (level : Int) : Option (List Char) :=
  if level = Level.debug then some "36".toList
  else if level = Level.info then some "37".toList
  else if level = Level.warning then some "33".toList
  else if level = Level.error then some "31".toList
  else if level = Level.critical then some "41".toList
  else none

/-- A line of a text log in the colour of its level. -/
def colouredText (r : Record) : List Char :=
  match colour? r.level with
  | some c => "\x1b[".toList ++ c ++ 'm' :: r.lineText ++ "\x1b[0m".toList
  | none => r.lineText

end Record

end Interop.Log
