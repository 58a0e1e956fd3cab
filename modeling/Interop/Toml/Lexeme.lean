import Interop.Text.Ascii
import Interop.Value.Basic

/-!
# Pieces of TOML

Spaces, comments, keys, strings, dates, times and numbers.  Every piece is read from where it begins
and comes with the text after it.  A text in which the piece is not well formed has none
(`Failure.malformed`); where and why does not matter to anybody who uses the result.
-/

set_option autoImplicit false

namespace Interop.Toml

/-- Why a text gives no table: it is not well formed, or one of its numbers is a fault. -/
inductive Failure
  | malformed
  | number (fault : NumberFault)
deriving DecidableEq, Repr

/-- A reader of whole documents.  What a document says depends on the edition of TOML, so nothing is
asked of a reader but that it gives a table or one of the two reasons against it. -/
abbrev Reader := List Char → Except Failure Value.Entries

def fail {α : Type} : Except Failure α := .error .malformed

/-! ## Space and comments -/

def isSpace (c : Char) : Bool := c == ' ' || c == '\t'

def isSpaceOrNewline (c : Char) : Bool := isSpace c || c == '\n'

/-- The control characters of ASCII but the tab. -/
def isControl (c : Char) : Bool := (c.toNat < 32 && c != '\t') || c.toNat == 127

def skipSpace (t : List Char) : List Char := t.dropWhile isSpace

/-- Skips a comment, if one begins here, up to the end of its line. -/
def skipComment (t : List Char) : Except Failure (List Char) :=
  match t with
  | '#' :: rest =>
    if (rest.takeWhile (· != '\n')).any isControl then fail else .ok (rest.dropWhile (· != '\n'))
  | _ => .ok t

/-- Skips spaces, newlines and comments.  Every comment is one step. -/
def skipLines : Nat → List Char → Except Failure (List Char)
  | 0, t => .ok (t.dropWhile isSpaceOrNewline)
  | steps + 1, t =>
    match t.dropWhile isSpaceOrNewline with
    | '#' :: rest => do skipLines steps (← skipComment ('#' :: rest))
    | left => .ok left

/-- Skips everything that may stand between the items of an array or an inline table. -/
def skipBetween (t : List Char) : Except Failure (List Char) := skipLines t.length t

/-! ## Strings -/

/-- The character with a code in so many hexadecimal digits, and what follows them. -/
def codeChar (count : Nat) (t : List Char) : Except Failure (Char × List Char) :=
  match (t.take count).mapM Text.hexValue? with
  | none => fail
  | some values =>
    let n := values.foldl (fun acc d => 16 * acc + d) 0
    if values.length = count ∧ n.isValidChar then .ok (Char.ofNat n, t.drop count) else fail

/-- The character of a one-letter escape. -/
def shortEscape? : Char → Option Char
  | 'b' => some '\x08'
  | 't' => some '\t'
  | 'n' => some '\n'
  | 'f' => some '\x0c'
  | 'r' => some '\r'
  | 'e' => some '\x1b'
  | '"' => some '"'
  | '\\' => some '\\'
  | _ => none

/-- The character of an escape, the backslash of which is gone. -/
def escape : List Char → Except Failure (Char × List Char)
  | 'x' :: rest => codeChar 2 rest
  | 'u' :: rest => codeChar 4 rest
  | 'U' :: rest => codeChar 8 rest
  | e :: rest =>
    match shortEscape? e with
    | some c => .ok (c, rest)
    | none => fail
  | [] => fail

/-- What follows a backslash at the end of a line, if it stands there: the text from the next
character on that is neither a space nor a newline. -/
def lineContinuation? (t : List Char) : Option (List Char) :=
  match skipSpace t with
  | '\n' :: rest => some (rest.dropWhile isSpaceOrNewline)
  | [] => if t.isEmpty then none else some []
  | _ => none

/-- A string with escapes up to its closing quote.  Each character takes a step. -/
def basicString : Nat → List Char → Except Failure (List Char × List Char)
  | 0, _ => fail
  | steps + 1, t =>
    match t with
    | [] => fail
    | '"' :: rest => .ok ([], rest)
    | '\\' :: rest => do
      let (c, left) ← escape rest
      let (cs, left) ← basicString steps left
      return (c :: cs, left)
    | c :: rest =>
      if isControl c then fail else do
        let (cs, left) ← basicString steps rest
        return (c :: cs, left)

/-- A string with escapes over several lines, up to its three closing quotes. -/
def basicLines : Nat → List Char → Except Failure (List Char × List Char)
  | 0, _ => fail
  | steps + 1, t =>
    match t with
    | [] => fail
    | '"' :: '"' :: '"' :: rest => .ok ([], rest)
    | '\\' :: rest =>
      match lineContinuation? rest with
      | some left => basicLines steps left
      | none => do
        let (c, left) ← escape rest
        let (cs, left) ← basicLines steps left
        return (c :: cs, left)
    | c :: rest =>
      if isControl c && c != '\n' then fail else do
        let (cs, left) ← basicLines steps rest
        return (c :: cs, left)

/-- A string without escapes up to its closing quote. -/
def literalString (t : List Char) : Except Failure (List Char × List Char) :=
  let content := t.takeWhile (· != '\'')
  match t.dropWhile (· != '\'') with
  | _ :: rest => if content.any isControl then fail else .ok (content, rest)
  | [] => fail

/-- A string without escapes over several lines, up to its three closing quotes. -/
def literalLines : List Char → Except Failure (List Char × List Char)
  | [] => fail
  | '\'' :: '\'' :: '\'' :: rest => .ok ([], rest)
  | c :: rest =>
    if isControl c && c != '\n' then fail else do
      let (cs, left) ← literalLines rest
      return (c :: cs, left)

/-- A newline right after the three opening quotes is not part of the string. -/
def dropFirstNewline : List Char → List Char
  | '\n' :: rest => rest
  | t => t

/-- Up to two quotes that stand before the three closing ones are part of the string. -/
def withExtraQuotes (quote : Char) (s rest : List Char) : List Char × List Char :=
  match rest with
  | a :: b :: left =>
    if a = quote ∧ b = quote then (s ++ [quote, quote], left)
    else if a = quote then (s ++ [quote], b :: left)
    else (s, rest)
  | [a] => if a = quote then (s ++ [quote], []) else (s, rest)
  | [] => (s, rest)

/-- A string of any of the four kinds, if one begins here. -/
def string? (t : List Char) : Option (Except Failure (String × List Char)) :=
  let done (r : Except Failure (List Char × List Char)) : Except Failure (String × List Char) :=
    r.map fun (s, left) => (String.ofList s, left)
  match t with
  | '"' :: '"' :: '"' :: rest =>
    let body := dropFirstNewline rest
    let found := basicLines (body.length + 1) body
    some (done (found.map fun (s, left) => withExtraQuotes '"' s left))
  | '"' :: rest => some (done (basicString (rest.length + 1) rest))
  | '\'' :: '\'' :: '\'' :: rest =>
    some (done ((literalLines (dropFirstNewline rest)).map fun (s, left) =>
      withExtraQuotes '\'' s left))
  | '\'' :: rest => some (done (literalString rest))
  | _ => none

/-! ## Keys -/

def isBareKeyChar (c : Char) : Bool := c.isAlphanum || c == '-' || c == '_'

/-- One part of a key. -/
def keyPart (t : List Char) : Except Failure (String × List Char) :=
  match t with
  | '"' :: rest => (basicString (rest.length + 1) rest).map fun (s, left) => (String.ofList s, left)
  | '\'' :: rest => (literalString rest).map fun (s, left) => (String.ofList s, left)
  | _ =>
    match t.takeWhile isBareKeyChar with
    | [] => fail
    | s => .ok (String.ofList s, t.dropWhile isBareKeyChar)

/-- A key: parts with points between them, spaces around the points allowed.  It has at least one
part, and each takes a step. -/
def keyParts : Nat → List Char → Except Failure (List String × List Char)
  | 0, _ => fail
  | steps + 1, t => do
    let (part, left) ← keyPart t
    match skipSpace left with
    | '.' :: rest =>
      let (parts, left) ← keyParts steps (skipSpace rest)
      return (part :: parts, left)
    | left => return ([part], left)

def key (t : List Char) : Except Failure (List String × List Char) := keyParts (t.length + 1) t

/-! ## Dates and times -/

/-- So many decimal digits, and what follows them. -/
def fixedNumber? (count : Nat) (t : List Char) : Option (Nat × List Char) :=
  let ds := t.take count
  if ds.length = count ∧ ds.all Text.isAsciiDigit then
    some (Number.digitsValue ds, t.drop count)
  else none

/-- Two digits below a limit. -/
def below? (limit : Nat) (t : List Char) : Option (Nat × List Char) :=
  (fixedNumber? 2 t).filter fun found => found.1 < limit

/-- The microseconds of the digits after a point.  Those beyond the sixth do not count. -/
def microseconds (ds : List Char) : Nat :=
  let ds := ds.take 6
  Number.digitsValue ds * tenTo (6 - ds.length)

/-- The seconds of a time and their fraction, both zero if there are none. -/
def seconds (t : List Char) : Nat × Nat × List Char :=
  match t with
  | ':' :: rest =>
    match below? 60 rest with
    | none => (0, 0, t)
    | some (second, left) =>
      match left with
      | '.' :: fraction =>
        match fraction.takeWhile Text.isAsciiDigit with
        | [] => (second, 0, left)
        | ds => (second, microseconds ds, fraction.dropWhile Text.isAsciiDigit)
      | left => (second, 0, left)
  | _ => (0, 0, t)

/-- A time of the day, if one begins here. -/
def clock? (t : List Char) : Option (Clock × List Char) := do
  let (hour, t) ← below? 24 t
  match t with
  | ':' :: rest =>
    let (minute, t) ← below? 60 rest
    let (second, microsecond, t) := seconds t
    return ({ hour, minute, second, microsecond }, t)
  | _ => none

/-- The minutes of an offset after its sign. -/
def offsetMinutes? (t : List Char) : Option (Nat × List Char) := do
  let (hours, t) ← below? 24 t
  match t with
  | ':' :: rest =>
    let (minutes, t) ← below? 60 rest
    return (60 * hours + minutes, t)
  | _ => none

/-- The offset of a time, in minutes, if it has one. -/
def offset (t : List Char) : Option Int × List Char :=
  match t with
  | 'Z' :: rest | 'z' :: rest => (some 0, rest)
  | '+' :: rest =>
    match offsetMinutes? rest with
    | some (n, left) => (some n, left)
    | none => (none, t)
  | '-' :: rest =>
    match offsetMinutes? rest with
    | some (n, left) => (some (-(n : Int)), left)
    | none => (none, t)
  | _ => (none, t)

/-- A day as it is written, whether or not its month is so long. -/
def writtenDay? (t : List Char) : Option (Day × List Char) := do
  let (year, t) ← fixedNumber? 4 t
  match t with
  | '-' :: rest =>
    let (month, t) ← below? 13 rest
    match t with
    | '-' :: rest =>
      let (day, t) ← below? 32 rest
      if month = 0 ∨ day = 0 then none else return (⟨year, month, day⟩, t)
    | _ => none
  | _ => none

/-- A day, alone or with a time behind it, if one begins here. -/
def dated? (t : List Char) : Option (Except Failure (Stamp × List Char)) := do
  let (day, left) ← writtenDay? t
  if !day.isValid then return fail
  let time : Option (Clock × List Char) := match left with
    | 'T' :: rest | 't' :: rest | ' ' :: rest => clock? rest
    | _ => none
  match time with
  | none => return .ok (.day day, left)
  | some (clock, left) =>
    let (offset, left) := offset left
    return .ok (.dayAndClock day clock offset, left)

/-- A date or a time, if one begins here. -/
def stamp? (t : List Char) : Option (Except Failure (Stamp × List Char)) :=
  match dated? t with
  | some r => some r
  | none => (clock? t).map fun (c, left) => .ok (.clock c, left)

/-! ## Numbers -/

/-- The digits of a class that a text begins with; a single underscore may stand between two of
them. -/
def digitRun (isDigit : Char → Bool) : List Char → List Char × List Char
  | [] => ([], [])
  | d :: '_' :: next :: rest =>
    if isDigit d then
      if isDigit next then
        let (ds, left) := digitRun isDigit (next :: rest)
        (d :: ds, left)
      else ([d], '_' :: next :: rest)
    else ([], d :: '_' :: next :: rest)
  | d :: rest =>
    if isDigit d then
      let (ds, left) := digitRun isDigit rest
      (d :: ds, left)
    else ([], d :: rest)

/-- An integer in another base after its mark, if it has a digit. -/
def radixInteger? (base : Nat) (t : List Char) : Option (Nat × List Char) :=
  let isDigit (c : Char) : Bool := (Text.hexValue? c).any (· < base)
  match digitRun isDigit t with
  | ([], _) => none
  | (ds, left) =>
    some (ds.foldl (fun acc d => base * acc + (Text.hexValue? d).getD 0) 0, left)

/-- The digits after a mark; without a digit there is no such part. -/
def fraction (t : List Char) : Option (List Char) × List Char :=
  match t with
  | '.' :: rest =>
    match digitRun Text.isAsciiDigit rest with
    | ([], _) => (none, t)
    | (ds, left) => (some ds, left)
  | _ => (none, t)

def exponent (t : List Char) : Option Int × List Char :=
  match t with
  | e :: rest =>
    if e = 'e' ∨ e = 'E' then
      let (negative, body) := match rest with
        | '-' :: body => (true, body)
        | '+' :: body => (false, body)
        | _ => (false, rest)
      match digitRun Text.isAsciiDigit body with
      | ([], _) => (none, t)
      | (ds, left) =>
        let n : Int := Number.digitsValue ds
        (some (if negative then -n else n), left)
    else (none, t)
  | [] => (none, t)

/-- A decimal number after its sign. -/
def decimal? (negative : Bool) (t : List Char) : Option (Except Failure (Number × List Char)) :=
  let (whole, left) := match t with
    | '0' :: rest => (['0'], rest)
    | _ => digitRun Text.isAsciiDigit t
  if whole = [] then none
  else
    let (fractionDigits, left) := fraction left
    let (power, left) := exponent left
    if fractionDigits = none ∧ power = none then
      match Number.readDigits whole with
      | .ok n => some (.ok (.int (if negative then -(n : Int) else n), left))
      | .error fault => some (.error (.number fault))
    else
      let fractionDigits := fractionDigits.getD []
      let x := Binary64.ofDecimal negative (Number.digitsValue (whole ++ fractionDigits))
        (power.getD 0 - fractionDigits.length)
      some (.ok (.double x, left))

/-- An infinity or what is not a number, after its sign. -/
def special? (negative : Bool) : List Char → Option (Number × List Char)
  | 'i' :: 'n' :: 'f' :: rest => some (.double (.infinite negative), rest)
  | 'n' :: 'a' :: 'n' :: rest => some (.double .nan, rest)
  | _ => none

/-- A number, if one begins here. -/
def number? (t : List Char) : Option (Except Failure (Number × List Char)) :=
  let radix := match t with
    | '0' :: 'x' :: rest => radixInteger? 16 rest
    | '0' :: 'o' :: rest => radixInteger? 8 rest
    | '0' :: 'b' :: rest => radixInteger? 2 rest
    | _ => none
  match radix with
  | some (n, left) => some (.ok (.int n, left))
  | none =>
    let (negative, body) := match t with
      | '-' :: rest => (true, rest)
      | '+' :: rest => (false, rest)
      | _ => (false, t)
    match decimal? negative body with
    | some r => some r
    | none => (special? negative body).map .ok

end Interop.Toml
