import Interop.Value.Basic

/-!
# Faults

A configuration may put a value of any kind where the program expects one in particular, and a
model may hold numbers that no computation can finish with.  A `Fault` says what went wrong; it is
found where the value is used, not where it is read.
-/

set_option autoImplicit false

namespace Interop

/-- What a value of the wrong kind does to a computation.  Kinds are named as in
`Value.kindName`. -/
inductive Fault
  | number (fault : NumberFault)
  /-- A value of this kind does not have the operation. -/
  | lacks (kind operation : String)
  /-- A value of this kind is no sequence. -/
  | notASequence (kind : String)
  /-- A value of this kind cannot count anything. -/
  | notACount (kind : String)
  /-- A value of this kind cannot be made an integer. -/
  | notAnInteger (kind : String)
  /-- The text of an integer was expected. -/
  | notANumeral (text : String)
  /-- A value of this kind has no spelling in JSON. -/
  | notInJson (kind : String)
deriving DecidableEq, Repr

namespace Fault

/-- How much of the quoted text of a numeral a message shows. -/
def shownNumeral : Nat := 200

def message : Fault → String
  | number fault => fault.message
  | lacks kind operation => "'" ++ kind ++ "' object has no attribute '" ++ operation ++ "'"
  | notASequence kind => "'" ++ kind ++ "' object is not iterable"
  | notACount kind => "'" ++ kind ++ "' object cannot be interpreted as an integer"
  | notAnInteger kind =>
    "int() argument must be a string, a bytes-like object or a real number, not '" ++ kind ++ "'"
  | notInJson kind => "Object of type " ++ kind ++ " is not JSON serializable"
  | notANumeral text =>
    "invalid literal for int() with base 10: "
      ++ String.ofList ((Text.quoted text.toList).take shownNumeral)

end Fault

namespace Value

/-- The characters of a value that is a text. -/
def characters (operation : String) : Value → Except Fault (List Char)
  | .text s => .ok s.toList
  | v => .error (.lacks v.kindName operation)

/-- The plain text of a value. -/
def shown (v : Value) : Except Fault (List Char) := v.plainText.mapError .number

end Value

end Interop
