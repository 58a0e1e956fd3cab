/-!
# UTF-8

`decode` accepts exactly the well-formed sequences: no overlong forms, no surrogates, nothing
above U+10FFFF.  A refusal names the bytes that it is about: the first byte if no sequence starts
with it, the part of a sequence that was still good if a wrong byte follows, and all remaining
bytes if the text ends inside a sequence that was good so far.
-/

set_option autoImplicit false

namespace Interop.Text

/-- The contents of a file. -/
abbrev Bytes := List UInt8

/-- The bytes of a text. -/
def encode (t : List Char) : Bytes := (String.ofList t).toUTF8.data.toList

namespace Utf8

inductive Cause
  | invalidStart
  | invalidContinuation
  | unexpectedEnd
deriving DecidableEq, Repr

/-- The bytes `refused`, which begin at a position, are no part of a text. -/
structure Refusal where
  cause : Cause
  position : Nat
  refused : Bytes
deriving DecidableEq, Repr

def Cause.description : Cause → String
  | invalidStart => "invalid start byte"
  | invalidContinuation => "invalid continuation byte"
  | unexpectedEnd => "unexpected end of data"

def hexByte (b : UInt8) : String :=
  let ds := Nat.toDigits 16 b.toNat
  String.ofList ('0' :: 'x' :: (List.replicate (2 - ds.length) '0' ++ ds))

def Refusal.message (r : Refusal) : String :=
  let what := match r.refused with
    | [b] => "byte " ++ hexByte b ++ " in position " ++ Nat.repr r.position
    | bs => "bytes in position " ++ Nat.repr r.position ++ "-"
      ++ Nat.repr (r.position + bs.length - 1)
  "'utf-8' codec can't decode " ++ what ++ ": " ++ r.cause.description

def isContinuation (b : UInt8) : Bool := 0x80 ≤ b && b < 0xC0

/-- Whether the second byte of a longer sequence suits the first: it must keep the value out of
the range of shorter sequences, of surrogates and of what lies above U+10FFFF. -/
def isSecond (first second : UInt8) : Bool :=
  isContinuation second
    && (first != 0xE0 || 0xA0 ≤ second) && (first != 0xED || second < 0xA0)
    && (first != 0xF0 || 0x90 ≤ second) && (first != 0xF4 || second < 0x90)

def low (b : UInt8) : Nat := b.toNat % 0x40

/-- Puts a character in front of what decoding the rest gives. -/
def prepend (c : Nat) (rest : Except Refusal (List Char)) : Except Refusal (List Char) :=
  rest.map (Char.ofNat c :: ·)

/-- The text from a position on. -/
def decodeFrom (position : Nat) : Bytes → Except Refusal (List Char)
  | [] => .ok []
  | b0 :: rest =>
    let stop (cause : Cause) (refused : Bytes) := Except.error ⟨cause, position, refused⟩
    if b0 < 0x80 then prepend b0.toNat (decodeFrom (position + 1) rest)
    else if b0 < 0xC2 ∨ 0xF4 < b0 then stop .invalidStart [b0]
    else match rest with
      | [] => stop .unexpectedEnd [b0]
      | b1 :: rest =>
        if !isSecond b0 b1 then stop .invalidContinuation [b0]
        else if b0 < 0xE0 then
          prepend (b0.toNat % 0x20 * 0x40 + low b1) (decodeFrom (position + 2) rest)
        else match rest with
          | [] => stop .unexpectedEnd [b0, b1]
          | b2 :: rest =>
            if !isContinuation b2 then stop .invalidContinuation [b0, b1]
            else if b0 < 0xF0 then
              prepend ((b0.toNat % 0x10 * 0x40 + low b1) * 0x40 + low b2)
                (decodeFrom (position + 3) rest)
            else match rest with
              | [] => stop .unexpectedEnd [b0, b1, b2]
              | b3 :: rest =>
                if !isContinuation b3 then stop .invalidContinuation [b0, b1, b2]
                else
                  prepend (((b0.toNat % 8 * 0x40 + low b1) * 0x40 + low b2) * 0x40 + low b3)
                    (decodeFrom (position + 4) rest)

/-- The text that bytes encode. -/
def decode (bytes : Bytes) : Except Refusal (List Char) := decodeFrom 0 bytes

end Utf8

/-- The text with each carriage return, alone or before a newline, as one newline. -/
def universalNewlines : List Char → List Char
  | [] => []
  | '\r' :: '\n' :: rest => '\n' :: universalNewlines rest
  | c :: rest => (if c = '\r' then '\n' else c) :: universalNewlines rest

end Interop.Text
