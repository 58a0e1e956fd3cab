import Interop.Config.Options
import Interop.Template.Fill
import Interop.Files.Path
import Interop.Time.Format

/-!
# Names of log files

A log file is named by a pattern in which `timestamp` stands for the moment of the setup, written
in a format of its own.  The suffix that the pattern ends in gives way to the one of the log.
-/

set_option autoImplicit false

namespace Interop.Log

/-- Why a log file has no name. -/
inductive NameError
  | fault (fault : Fault)
  /-- The format of the moment is a value of this kind and no text. -/
  | formatNotText (kind : String)
  | template (error : Template.FillError)
deriving DecidableEq, Repr

/-- The name of a value's kind where null goes by its own name. -/
def argumentKind : Value → String
  | .null => "None"
  | v => v.kindName

def NameError.message : NameError → String
  | fault f => f.message
  | formatNotText kind => "strftime() argument 1 must be str, not " ++ kind
  | template e => String.ofList e.message

def defaultTimestampFormat : Value := .text "%Y%m%dT%H%M%S"

def defaultFilePattern : Value := .text "c2cs-\x7btimestamp\x7d.log"

/-- The moment in the format of a section. -/
def timestamp (options : Value) (moment : Moment) : Except NameError (List Char) := do
  match ← (Config.getOr options "timestamp_format" defaultTimestampFormat).mapError .fault with
  | .text format => return moment.format format.toList
  | v => throw (.formatNotText (argumentKind v))

/-- The name of a log file with a suffix, no part of which is laid out to more than `room`
characters. -/
def fileName (room : Nat) (options : Value) (moment : Moment) (suffix : List Char) :
    Except NameError (List Char) := do
  let stamp ← timestamp options moment
  let pattern ← (Config.getOr options "filename_pattern" defaultFilePattern).mapError .fault
  let pattern ← (pattern.characters "format").mapError .fault
  let name ← (Template.fill room [("timestamp".toList, stamp)] pattern).mapError .template
  return Path.dropSuffix name ++ suffix

end Interop.Log
