import Interop.Config.File
import Interop.Generation.Run
import Interop.Log.Setup

/-!
# What the command reports

Most of what goes wrong is somebody's mistake: a file that is not there, a value of the wrong kind
or form, a model that does not fit.  The command reports it in one line.  Anything else is an
accident, and ends the program.

The two halves of a run draw the line in different places.  While the configuration is prepared,
a value of the wrong kind is a mistake; while the bindings are made, it is an accident.
-/

set_option autoImplicit false

namespace Interop

/-- Whether a fault in a configuration is a mistake.  An operation that a value lacks and a number
that has no integer are accidents. -/
def Fault.isMistake : Fault → Bool
  | .number .tooLargeForDouble | .number .infiniteToInteger => false
  | .lacks .. => false
  | _ => true

/-- Whether it is a mistake to ask this of a subject.  To name what is not there is none, and
neither is to ask for too much. -/
def Template.SubjectError.isMistake : Template.SubjectError → Bool
  | .noAttribute .. | .noKindAttribute .. | .notGiven _ => false
  | .textIndexOutOfRange | .tupleIndexOutOfRange | .noMemberAt _ | .noMember _ => false
  | .layout .noRoom | .layout .noCharacter => false
  | _ => true

/-- Whether an error of a template is a mistake. -/
def Template.FillError.isMistake : Template.FillError → Bool
  | .noName _ | .noPlace _ => false
  | .subject e => e.isMistake
  | _ => true

def Log.SetupError.isMistake : Log.SetupError → Bool
  | .fault f | .level (.fault f) | .name (.fault f) => f.isMistake
  | .name (.template e) => e.isMistake
  | _ => true

def Config.LoadError.isMistake : Config.LoadError → Bool
  | .noHome => false
  | _ => true

def FileError.isMistake : FileError → Bool
  | .embeddedNull => false
  | _ => true

namespace Generation

/-- Whether an error about paths is a mistake: to write over a file of the same run is one. -/
def PathError.isMistake : PathError → Bool
  | .outputOverInput _ | .manifestOverInput _ | .manifestOverOutput _ => true
  | _ => false

/-- What is reported about a model that cannot be loaded. -/
def loadReport? : Decl.LoadError → Option (List Char)
  | .file e => if e.isMistake then some e.message else none
  | .missing path => (Decl.LoadError.missing path).message.toOption.map String.toList
  | .notJson path d => (Decl.LoadError.notJson path d).message.toOption.map String.toList
  | .document (.invalid v) => v.message.toOption.map String.toList
  | _ => none

/-- The text of an aborted run. -/
def abortMessage (input : List Char) (failures : List Binding.Failure) : List Char :=
  Nat.toDigits 10 failures.length ++ " declaration(s) of ".toList ++ input
    ++ " could not be mapped".toList

/-- The text of a computation of a text, or of the fault that it ends in. -/
def textOrFault (r : Except NumberFault String) : List Char :=
  match r with
  | .ok t => t.toList
  | .error f => f.message.toList

def RunError.message : RunError → List Char
  | .fault f => f.message.toList
  | .config e => textOrFault e.message
  | .path e => e.message
  | .load e => textOrFault e.message
  | .emission e => e.message
  | .aborted input failures => abortMessage input failures
  | .file e => e.message

/-- What is reported about a run that failed. -/
def RunError.report? : RunError → Option (List Char)
  | .path e => if e.isMistake then some e.message else none
  | .load e => loadReport? e
  | .aborted input failures => some (abortMessage input failures)
  | .file e => if e.isMistake then some e.message else none
  | _ => none

end Generation

end Interop
