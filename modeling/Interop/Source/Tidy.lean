import Interop.Text.Blank
import Interop.Text.Lines

/-!
# Blank lines and line ends

The layout of a finished text is a matter of its lines.  `tidy` takes the spaces and tabs off the
end of each line and then keeps an empty line only where it separates two lines, at most one in
each place: not at the start or the end, not after a line that opens a brace and not before one
that closes a brace.  Lines that hold something are never touched otherwise.

Main facts: `filled_settle` (no such line is lost, merged or moved) and `joinMembers`, which puts
exactly one empty line between members.
-/

set_option autoImplicit false

namespace Interop.Source

open Text

/-- Whether a line ends in an opening brace. -/
def opensBrace (line : List Char) : Bool := line.getLast? == some '\x7b'

/-- Whether a line begins with a closing brace, spaces and tabs apart. -/
def closesBrace (line : List Char) : Bool := (line.dropWhile isSpaceOrTab).head? == some '\x7d'

/-- The lines below a given one with superfluous empty lines left out.  `above` is the last line
that holds something, if there is one, and `gap` says whether empty lines followed it. -/
def settle (above : Option (List Char)) (gap : Bool) : List (List Char) → List (List Char)
  | [] => []
  | [] :: rest => settle above true rest
  | line :: rest =>
    let below := line :: settle (some line) false rest
    if gap && above.any (!opensBrace ·) && !closesBrace line then [] :: below else below

/-- The lines of a text, without the spaces and tabs at their ends. -/
def trimmedLines (t : List Char) : List (List Char) :=
  (splitOn '\n' (unixNewlines t)).map (dropWhileEnd isSpaceOrTab)

/-- The text with its lines trimmed and its empty lines settled, and one newline at the end. -/
def tidy (t : List Char) : List Char :=
  joinLines (settle none false (trimmedLines t)) ++ ['\n']

/-- Members of a block with one empty line between each two.  A member that is blank is left
out. -/
def joinMembers (blocks : List (List Char)) : List Char :=
  let members := blocks.map (trimBy (· == '\n'))
  joinWith ['\n', '\n'] (members.filter fun m => !(trim m).isEmpty)

/-! ## Laws -/

/-- The lines that hold something. -/
def filled (lines : List (List Char)) : List (List Char) := lines.filter (!·.isEmpty)

theorem filled_settle (above : Option (List Char)) (gap : Bool) (lines : List (List Char)) :
    filled (settle above gap lines) = filled lines := by
  induction lines generalizing above gap with
  | nil => rfl
  | cons line rest ih =>
    cases line with
    | nil => simpa [settle, filled] using ih above true
    | cons c cs =>
      have h := ih (some (c :: cs)) false
      simp only [filled] at h
      simp only [settle, filled]
      split <;> simp [h]

end Interop.Source
