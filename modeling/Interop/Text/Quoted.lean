import Interop.Text.Printable

/-!
# Quoted text

The spelling of a text inside a message: between single quotes, or between double quotes if the
text has single quotes and no double ones, with the quote in use and the backslash escaped.
Characters that are not printable are written as short escapes or by their code in hexadecimal.
-/

set_option autoImplicit false

namespace Interop.Text

/-- Lower-case hexadecimal digits, padded with zeros to a width. -/
def hexDigits (width n : Nat) : List Char :=
  let ds := Nat.toDigits 16 n
  List.replicate (width - ds.length) '0' ++ ds

/-- A character by its code, in two, four or eight hexadecimal digits. -/
def codeEscape (c : Char) : List Char :=
  let n := c.toNat
  if n < 0x100 then '\\' :: 'x' :: hexDigits 2 n
  else if n < 0x10000 then '\\' :: 'u' :: hexDigits 4 n
  else '\\' :: 'U' :: hexDigits 8 n

/-- A character between quotes; `plain` says which characters stand for themselves. -/
def escapeChar (plain : Char → Bool) (quote c : Char) : List Char :=
  if c = quote ∨ c = '\\' then ['\\', c]
  else if c = '\n' then ['\\', 'n']
  else if c = '\r' then ['\\', 'r']
  else if c = '\t' then ['\\', 't']
  else if plain c then [c]
  else codeEscape c

/-- The quote that a text is put in. -/
def quoteFor (t : List Char) : Char :=
  if t.contains '\'' && !t.contains '"' then '"' else '\''

def quotedBy (plain : Char → Bool) (t : List Char) : List Char :=
  let quote := quoteFor t
  quote :: t.flatMap (escapeChar plain quote) ++ [quote]

/-- A text in quotes, with every printable character as it is. -/
def quoted (t : List Char) : List Char := quotedBy isPrintable t

/-- A text in quotes, written in ASCII alone. -/
def quotedAscii (t : List Char) : List Char :=
  quotedBy (fun c => c.toNat < 0x80 && isPrintable c) t

/-- A text with the characters outside ASCII written by their codes. -/
def inAscii (t : List Char) : List Char :=
  t.flatMap fun c => if c.toNat < 0x80 then [c] else codeEscape c

end Interop.Text
