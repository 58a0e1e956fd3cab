import Interop.Text.Ascii
import Interop.Value.Basic

/-!
# Reading JSON

The grammar of JSON with three additions: the words `NaN`, `Infinity` and `-Infinity` are
numbers.  A key that occurs twice in an object keeps its first place and its last value.  A
number with a fraction or an exponent is a double, any other an integer.

A failure names its cause and the text from the place of the failure on; `position` turns that into
a count of characters, so no step of the reader has to count.

Escapes can spell half of a surrogate pair, which is no character and has no bytes.  A program that
carries such halves along fails only where it writes them.  Here a text consists of characters, so
that all of it can be written; what such a program does is not described, and reading ends where
half of a pair is met (`Failure.halfPair`).

The reader recurses on a budget, which each value and each item of a container lowers by one.  A
character starts at most one of each, so a budget above twice the length of the text is never used
up.
-/

set_option autoImplicit false

namespace Interop.Json

/-- Why a text is not JSON. -/
inductive Cause
  | expectedValue
  | expectedName
  | expectedColon
  | expectedComma
  | extraData
  | unterminatedString
  | controlCharacter
  | badEscape
  | badUnicodeEscape
  | byteOrderMark
deriving DecidableEq, Repr

def Cause.description : Cause → String
  | expectedValue => "Expecting value"
  | expectedName => "Expecting property name enclosed in double quotes"
  | expectedColon => "Expecting ':' delimiter"
  | expectedComma => "Expecting ',' delimiter"
  | extraData => "Extra data"
  | unterminatedString => "Unterminated string starting at"
  | controlCharacter => "Invalid control character at"
  | badEscape => "Invalid \\escape"
  | badUnicodeEscape => "Invalid \\uXXXX escape"
  | byteOrderMark => "Unexpected UTF-8 BOM (decode using utf-8-sig)"

/-- Why a text cannot be read: it is no JSON from some place on, one of its numbers is a fault, or
one of its strings is not made of characters. -/
inductive Failure
  | malformed (cause : Cause) (rest : List Char)
  | number (fault : NumberFault)
  | halfPair
deriving DecidableEq, Repr

/-! ## Strings -/

/-- A piece of a string: a character as it stands, or the sixteen bits of an escape. -/
inductive Piece
  | char (c : Char)
  | unit (code : Nat)
deriving DecidableEq, Repr

/-- The value of four hexadecimal digits. -/
def unit? (a b c d : Char) : Option Nat := do
  let a ← Text.hexValue? a
  let b ← Text.hexValue? b
  let c ← Text.hexValue? c
  let d ← Text.hexValue? d
  return ((a * 16 + b) * 16 + c) * 16 + d

/-- The character of a one-letter escape. -/
def shortEscape? : Char → Option Char
  | '"' => some '"'
  | '\\' => some '\\'
  | '/' => some '/'
  | 'b' => some '\x08'
  | 'f' => some '\x0c'
  | 'n' => some '\n'
  | 'r' => some '\r'
  | 't' => some '\t'
  | _ => none

/-- The pieces of a string up to its closing quote; `start` is the text from the opening quote
on.  Four digits that end the text make no escape. -/
def pieces (start : List Char) : List Char → Except Failure (List Piece × List Char)
  | [] => .error (.malformed .unterminatedString start)
  | '"' :: rest => .ok ([], rest)
  | ['\\'] => .error (.malformed .unterminatedString start)
  | '\\' :: 'u' :: a :: b :: c :: d :: rest =>
    match unit? a b c d, rest with
    | some code, _ :: _ => do
      let (ps, left) ← pieces start rest
      return (.unit code :: ps, left)
    | _, _ => .error (.malformed .badUnicodeEscape ('u' :: a :: b :: c :: d :: rest))
  | '\\' :: e :: rest =>
    if e = 'u' then .error (.malformed .badUnicodeEscape ('u' :: rest))
    else match shortEscape? e with
      | some c => do
        let (ps, left) ← pieces start rest
        return (.char c :: ps, left)
      | none => .error (.malformed .badEscape ('\\' :: e :: rest))
  | c :: rest =>
    if c.toNat < 0x20 then .error (.malformed .controlCharacter (c :: rest))
    else do
      let (ps, left) ← pieces start rest
      return (.char c :: ps, left)

def isHighSurrogate (n : Nat) : Bool := 0xD800 ≤ n && n < 0xDC00

def isLowSurrogate (n : Nat) : Bool := 0xDC00 ≤ n && n < 0xE000

/-- The character of a surrogate pair. -/
def pairChar (high low : Nat) : Char :=
  Char.ofNat (0x10000 + (high - 0xD800) * 0x400 + (low - 0xDC00))

/-- The character of a single unit; half of a pair has none. -/
def unitChar? (code : Nat) : Option Char :=
  if isHighSurrogate code || isLowSurrogate code then none else some (Char.ofNat code)

/-- The characters of a string: two units in a row that form a surrogate pair are one
character. -/
def assemble? : List Piece → Option (List Char)
  | [] => some []
  | .unit high :: .unit low :: rest =>
    if isHighSurrogate high && isLowSurrogate low then
      (assemble? rest).map (pairChar high low :: ·)
    else do return (← unitChar? high) :: (← assemble? (.unit low :: rest))
  | .unit code :: rest => do return (← unitChar? code) :: (← assemble? rest)
  | .char c :: rest => (assemble? rest).map (c :: ·)

/-- Reads a string; the text begins after its opening quote. -/
def string (rest : List Char) : Except Failure (String × List Char) := do
  let (ps, left) ← pieces ('"' :: rest) rest
  match assemble? ps with
  | some cs => return (String.ofList cs, left)
  | none => throw .halfPair

/-! ## Numbers -/

/-- Splits off the digits that a text starts with. -/
def digitRun (t : List Char) : List Char × List Char :=
  (t.takeWhile Text.isAsciiDigit, t.dropWhile Text.isAsciiDigit)

/-- The digits before the point: a zero, or a run that starts with another digit. -/
def wholePart : List Char → List Char × List Char
  | '0' :: rest => (['0'], rest)
  | t => digitRun t

/-- The digits after a point; there is no fraction without a digit. -/
def fractionPart : List Char → List Char × List Char
  | '.' :: rest =>
    match digitRun rest with
    | ([], _) => ([], '.' :: rest)
    | (ds, left) => (ds, left)
  | t => ([], t)

/-- The exponent; there is none without a digit. -/
def exponentPart (t : List Char) : Option Int × List Char :=
  match t with
  | e :: rest =>
    if e = 'e' ∨ e = 'E' then
      let (negative, body) := match rest with
        | '-' :: body => (true, body)
        | '+' :: body => (false, body)
        | _ => (false, rest)
      match digitRun body with
      | ([], _) => (none, t)
      | (ds, left) =>
        let n : Int := Number.digitsValue ds
        (some (if negative then -n else n), left)
    else (none, t)
  | [] => (none, t)

/-- Reads a number, if the text starts with one. -/
def number? (t : List Char) : Option (Except NumberFault Number × List Char) :=
  let (negative, body) := match t with
    | '-' :: rest => (true, rest)
    | _ => (false, t)
  match wholePart body with
  | ([], _) => none
  | (whole, rest) =>
    let (fraction, rest) := fractionPart rest
    let (exponent, rest) := exponentPart rest
    if fraction = [] ∧ exponent = none then
      let n := (Number.readDigits whole).map fun n =>
        Number.int (if negative then -(n : Int) else n)
      some (n, rest)
    else
      let digits := Number.digitsValue (whole ++ fraction)
      let x := Binary64.ofDecimal negative digits (exponent.getD 0 - fraction.length)
      some (.ok (.double x), rest)

/-! ## Values -/

def isSpace (c : Char) : Bool := c == ' ' || c == '\t' || c == '\n' || c == '\r'

def skipSpace (t : List Char) : List Char := t.dropWhile isSpace

/-- The words that are values. -/
def words : List (List Char × Value) :=
  [("null".toList, .null), ("true".toList, .bool true), ("false".toList, .bool false),
   ("NaN".toList, .number (.double .nan)),
   ("Infinity".toList, .number (.double (.infinite false))),
   ("-Infinity".toList, .number (.double (.infinite true)))]

/-- What a text starts with, apart from strings, arrays and objects. -/
def scalar (t : List Char) : Except Failure (Value × List Char) :=
  match words.find? fun (w, _) => w.isPrefixOf t with
  | some (w, v) => .ok (v, t.drop w.length)
  | none =>
    match number? t with
    | some (.ok n, rest) => .ok (.number n, rest)
    | some (.error fault, _) => .error (.number fault)
    | none => .error (.malformed .expectedValue t)

mutual

/-- Reads a value that starts here. -/
def value : Nat → List Char → Except Failure (Value × List Char)
  | 0, t => .error (.malformed .expectedValue t)
  | budget + 1, t =>
    match t with
    | '"' :: rest => do
      let (s, left) ← string rest
      return (.text s, left)
    | '[' :: rest =>
      match skipSpace rest with
      | ']' :: left => .ok (.list [], left)
      | inside => do
        let (items, left) ← arrayItems budget inside
        return (.list items, left)
    | '\x7b' :: rest =>
      match skipSpace rest with
      | '\x7d' :: left => .ok (.table [], left)
      | inside => do
        let (settings, left) ← members budget inside
        return (.table (Value.ofSettings settings), left)
    | _ => scalar t

/-- The items of an array, the next of which starts here. -/
def arrayItems : Nat → List Char → Except Failure (List Value × List Char)
  | 0, t => .error (.malformed .expectedValue t)
  | budget + 1, t => do
    let (item, left) ← value budget t
    match skipSpace left with
    | ']' :: left => return ([item], left)
    | ',' :: left =>
      let (items, left) ← arrayItems budget (skipSpace left)
      return (item :: items, left)
    | left => throw (.malformed .expectedComma left)

/-- The members of an object, the next of which starts here. -/
def members : Nat → List Char → Except Failure (List (String × Value) × List Char)
  | 0, t => .error (.malformed .expectedValue t)
  | budget + 1, t =>
    match t with
    | '"' :: rest => do
      let (name, left) ← string rest
      match skipSpace left with
      | ':' :: left =>
        let (item, left) ← value budget (skipSpace left)
        match skipSpace left with
        | '\x7d' :: left => return ([(name, item)], left)
        | ',' :: left =>
          let (settings, left) ← members budget (skipSpace left)
          return ((name, item) :: settings, left)
        | left => throw (.malformed .expectedComma left)
      | left => throw (.malformed .expectedColon left)
    | t => .error (.malformed .expectedName t)

end

/-- Reads a text that is one value with space around it. -/
def read (t : List Char) : Except Failure Value :=
  match t with
  | '\uFEFF' :: _ => .error (.malformed .byteOrderMark t)
  | _ => do
    let (v, left) ← value (2 * t.length + 2) (skipSpace t)
    match skipSpace left with
    | [] => return v
    | extra => throw (.malformed .extraData extra)

/-! ## Places -/

/-- The number of characters of a text before the part that a failure points at. -/
def position (whole rest : List Char) : Nat := whole.length - rest.length

/-- The line of a place, from one. -/
def lineOf (whole : List Char) (position : Nat) : Nat := (whole.take position).count '\n' + 1

/-- The column of a place, from one. -/
def columnOf (whole : List Char) (position : Nat) : Nat :=
  ((whole.take position).reverse.takeWhile (· ≠ '\n')).length + 1

/-- A cause with its place in the text. -/
def describe (whole : List Char) (cause : Cause) (rest : List Char) : String :=
  let p := position whole rest
  cause.description ++ ": line " ++ Nat.repr (lineOf whole p) ++ " column "
    ++ Nat.repr (columnOf whole p) ++ " (char " ++ Nat.repr p ++ ")"

end Interop.Json
