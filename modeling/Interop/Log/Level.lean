import Interop.Fault
import Interop.Text.Capital
import Interop.Text.Digits

/-!
# Levels

A level is a number; the higher it is, the more it matters.  Six numbers have names.  A level can
be given as a number, as the digits of one or by name in letters of either case.  It can also be
given as a truth value, which counts as one or zero and keeps its own spelling.
-/

set_option autoImplicit false

namespace Interop.Log

inductive Level
  | number (n : Int)
  | flag (b : Bool)
deriving DecidableEq, Repr

namespace Level

/-- What levels are compared by. -/
def rank : Level → Int
  | number n => n
  | flag true => 1
  | flag false => 0

def debug : Int := 10
def info : Int := 20
def warning : Int := 30
def error : Int := 40
def critical : Int := 50

/-- The names that a level can be given by. -/
def names : List (String × Int) :=
  [("CRITICAL", critical), ("FATAL", critical), ("ERROR", error), ("WARN", warning),
   ("WARNING", warning), ("INFO", info), ("DEBUG", debug), ("NOTSET", 0)]

/-- The name that a level is shown by. -/
def name (n : Int) : String :=
  if n = critical then "CRITICAL"
  else if n = error then "ERROR"
  else if n = warning then "WARNING"
  else if n = info then "INFO"
  else if n = debug then "DEBUG"
  else if n = 0 then "NOTSET"
  else "Level " ++ Int.repr n

/-- The lower of two levels, the first if they are equal. -/
def lower (a b : Level) : Level := if b.rank < a.rank then b else a

/-- A level, but not less than an error. -/
def atLeastError (l : Level) : Level := if l.rank < error then .number error else l

end Level

/-- Why a value is no level. -/
inductive LevelError
  | unknown (value : List Char)
  | fault (fault : Fault)
deriving DecidableEq, Repr

def LevelError.message : LevelError → String
  | unknown value => "Unknown log level: " ++ String.ofList value
  | fault f => f.message

/-- The level that a text names. -/
def Level.ofText (t : List Char) : Except LevelError Level :=
  let capitals := Text.capitals t
  if !t.isEmpty && t.all Text.isDigitLike then
    match Text.readInteger? t with
    | .ok (some n) => .ok (.number n)
    | .ok none => .error (.fault (.notANumeral (String.ofList t)))
    | .error fault => .error (.fault (.number fault))
  else match names.find? fun e => e.1.toList = capitals with
    | some (_, n) => .ok (.number n)
    | none => .error (.unknown t)

/-- The level that a value gives, or `default` if it gives none. -/
def Level.ofValue (v : Value) (default : Level) : Except LevelError Level :=
  match v with
  | .null => .ok default
  | .text "" => .ok default
  | .bool b => .ok (.flag b)
  | .number (.int n) => .ok (.number n)
  | v =>
    match v.plainText with
    | .ok t => Level.ofText t
    | .error fault => .error (.fault (.number fault))

end Interop.Log
