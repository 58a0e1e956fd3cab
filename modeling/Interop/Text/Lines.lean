/-!
# Lines and indentation

Two notions of a line live here.  `splitLines` breaks a text at every separator Unicode knows,
as a reader of running text does; `splitOn` breaks it at one given character.  Indenting a block
is a matter of lines of the first kind, so a separator inside the block comes out as a newline.
-/

set_option autoImplicit false

namespace Interop.Text

/-- The characters that end a line. -/
def isLineBreak (c : Char) : Bool :=
  let n := c.toNat
  (10 ≤ n && n ≤ 13) || (28 ≤ n && n ≤ 30) || n == 0x85 || n == 0x2028 || n == 0x2029

/-- The lines of a text, without their separators.  A carriage return and a newline together end
one line, and a text that ends with a separator has no empty line after it. -/
def splitLines : List Char → List (List Char)
  | [] => []
  | '\r' :: '\n' :: rest => [] :: splitLines rest
  | c :: rest =>
    if isLineBreak c then [] :: splitLines rest
    else match splitLines rest with
      | [] => [[c]]
      | line :: lines => (c :: line) :: lines

/-- Each carriage return and newline together becomes a newline. -/
def unixNewlines : List Char → List Char
  | [] => []
  | '\r' :: '\n' :: rest => '\n' :: unixNewlines rest
  | c :: rest => c :: unixNewlines rest

/-- The pieces of a text between the occurrences of a character; there is always one. -/
def splitOn (separator : Char) : List Char → List (List Char)
  | [] => [[]]
  | c :: rest =>
    if c = separator then [] :: splitOn separator rest
    else match splitOn separator rest with
      | [] => [[c]]
      | piece :: pieces => (c :: piece) :: pieces

/-- Puts pieces together with a text between each two. -/
def joinWith (separator : List Char) : List (List Char) → List Char
  | [] => []
  | [piece] => piece
  | piece :: pieces => piece ++ separator ++ joinWith separator pieces

/-- Puts lines together with newlines between them. -/
def joinLines (lines : List (List Char)) : List Char := joinWith ['\n'] lines

/-- One step of indentation. -/
def indentation : List Char := [' ', ' ', ' ', ' ']

/-- A line one step deeper; an empty line stays empty. -/
def indentLine (line : List Char) : List Char :=
  if line = [] then [] else indentation ++ line

/-- A block of text one step deeper.  The first line is moved even if it is empty, the others only
if they hold something.  Each line break becomes a newline, but a carriage return at the end is
lost. -/
def indent (block : List Char) : List Char :=
  match splitLines (block ++ ['\n']) with
  | [] => indentation
  | first :: others => joinLines ((indentation ++ first) :: others.map indentLine)

/-! ## Laws -/

theorem splitOn_ne_nil (separator : Char) (t : List Char) : splitOn separator t ≠ [] := by
  cases t with
  | nil => simp [splitOn]
  | cons c rest =>
    simp only [splitOn]
    split
    · simp
    · split <;> simp

end Interop.Text
