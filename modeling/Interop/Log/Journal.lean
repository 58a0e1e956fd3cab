import Interop.Files.Path
import Interop.Log.Record

/-!
# Where records go

A journal has a level and handlers.  A record whose level the journal lets pass goes to every
handler that takes it.  Below errors the console is standard output, from errors on it is standard
error, so no record comes up on both.

A journal whose level is zero has none of its own and takes the one of warnings.  A journal without
handlers still shows warnings and errors, as bare messages on standard error.
-/

set_option autoImplicit false

namespace Interop.Log

/-- Where a handler puts records. -/
inductive Sink
  /-- Standard output, for records below errors. -/
  | output (coloured : Bool)
  /-- Standard error. -/
  | errors (coloured : Bool)
  /-- A file with a line of text for each record. -/
  | textFile (place : Place)
  /-- A file with a line of JSON for each record. -/
  | jsonFile (place : Place)
deriving DecidableEq, Repr

structure Handler where
  sink : Sink
  level : Level
deriving DecidableEq, Repr

/-- A text that goes somewhere. -/
inductive Delivery
  | output (t : List Char)
  | errors (t : List Char)
  | file (place : Place) (t : List Char)
deriving DecidableEq, Repr

/-- Whether a sink takes records of a level at all. -/
def Sink.takes (level : Int) : Sink → Bool
  | output _ => level < Level.error
  | _ => true

/-- A record as a sink gets it. -/
def Sink.deliver (r : Record) : Sink → Delivery
  | output coloured => .output ((if coloured then r.colouredText else r.lineText) ++ ['\n'])
  | errors coloured => .errors ((if coloured then r.colouredText else r.lineText) ++ ['\n'])
  | textFile place => .file place (r.lineText ++ ['\n'])
  | jsonFile place => .file place (r.jsonText ++ ['\n'])

/-- Whether a handler takes records of a level. -/
def Handler.takes (h : Handler) (level : Int) : Bool := h.level.rank ≤ level && h.sink.takes level

structure Journal where
  level : Level
  handlers : List Handler
deriving DecidableEq, Repr

namespace Journal

/-- A journal that nothing was set up for. -/
def fresh : Journal := ⟨.number 0, []⟩

/-- The level that a record has to have. -/
def threshold (j : Journal) : Int := if j.level.rank = 0 then Level.warning else j.level.rank

/-- Whether a journal lets records of a level pass.  Levels of zero and below are never shown. -/
def passes (j : Journal) (level : Int) : Bool := 0 < level && j.threshold ≤ level

/-- Where a record goes, in the order of the handlers. -/
def deliveries (j : Journal) (r : Record) : List Delivery :=
  if !j.passes r.level then []
  else match j.handlers with
    | [] => if Level.warning ≤ r.level then [.errors (r.bareText ++ ['\n'])] else []
    | hs => (hs.filter (·.takes r.level)).map (·.sink.deliver r)

end Journal

end Interop.Log
