import Interop.Number.Basic
import Interop.Text.Ascii

/-!
# Identifiers

A reserved word is escaped with a mark in front.  Parameters of one function have to be told
apart, so a name that is taken makes way for the next candidate: a name that ends in digits counts
on from them, any other name goes on with `2`.

`freeName` looks for the first candidate that is not taken.  All candidates of one search are
distinct, so as many steps as there are taken names are always enough.
-/

set_option autoImplicit false

namespace Interop.Binding

/-- The reserved words of the generated language. -/
def reservedWords : List String :=
  ["abstract", "as", "base", "bool", "break", "byte", "case", "catch", "char", "checked", "class",
   "const", "continue", "decimal", "default", "delegate", "do", "double", "else", "enum", "event",
   "explicit", "extern", "false", "finally", "fixed", "float", "for", "foreach", "goto", "if",
   "implicit", "in", "int", "interface", "internal", "is", "lock", "long", "namespace", "new",
   "null", "object", "operator", "out", "override", "params", "private", "protected", "public",
   "readonly", "record", "ref", "return", "sbyte", "sealed", "short", "sizeof", "stackalloc",
   "static", "string", "struct", "switch", "this", "throw", "true", "try", "typeof", "uint",
   "ulong", "unchecked", "unsafe", "ushort", "using", "virtual", "void", "volatile", "while"]

/-- A name as an identifier: escaped if it is reserved. -/
def escapeReserved (reserved : List String) (name : String) : String :=
  if reserved.contains name then "@" ++ name else name

/-! ## Candidates -/

/-- A text without one newline at its end. -/
def dropFinalNewline : List Char → List Char
  | [] => []
  | ['\n'] => []
  | c :: rest => c :: dropFinalNewline rest

/-- Splits off the digits that a name ends in. -/
def splitDigits (t : List Char) : List Char × List Char :=
  ((t.reverse.dropWhile Text.isAsciiDigit).reverse, (t.reverse.takeWhile Text.isAsciiDigit).reverse)

/-- The name after a name.  Digits at the end are counted up, without their leading zeros; a
newline after them is lost. -/
def nextCandidate (name : List Char) : Except NumberFault (List Char) :=
  match splitDigits (dropFinalNewline name) with
  | (_, []) => .ok (name ++ ['2'])
  | (stem, digits) => do
    let n ← Number.readDigits digits
    return stem ++ (← Number.intText (n + 1))

/-- The first candidate from a name on that is not taken, within a number of steps. -/
def firstFree (taken : List String) : Nat → String → Except NumberFault String
  | 0, name => .ok name
  | steps + 1, name =>
    if taken.contains name then do
      firstFree taken steps (String.ofList (← nextCandidate name.toList))
    else .ok name

/-- The name of a parameter without one. -/
def defaultParameterName : String := "param"

/-- A name for a parameter that none of the taken names equals. -/
def freeName (candidate : String) (taken : List String) : Except NumberFault String :=
  firstFree taken taken.length (if candidate.isEmpty then defaultParameterName else candidate)

end Interop.Binding
