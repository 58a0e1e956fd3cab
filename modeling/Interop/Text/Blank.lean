/-!
# Blank characters

A character is blank if Unicode gives it the property `White_Space` or if it is one of the four
information separators U+001C to U+001F.  Text is trimmed by this class where a rule says
"surrounding space"; where a rule says "spaces and tabs" it means those two characters alone.
-/

set_option autoImplicit false

namespace Interop.Text

/-- The characters with the Unicode property `White_Space`. -/
def isWhiteSpace (c : Char) : Bool :=
  let n := c.toNat
  (9 ≤ n && n ≤ 13) || n == 32 || n == 0x85 || n == 0xA0 || n == 0x1680
    || (0x2000 ≤ n && n ≤ 0x200A) || n == 0x2028 || n == 0x2029 || n == 0x202F || n == 0x205F
    || n == 0x3000

/-- Unicode white space, and the information separators. -/
def isBlank (c : Char) : Bool :=
  isWhiteSpace c || (28 ≤ c.toNat && c.toNat ≤ 31)

/-- A space or a tab. -/
def isSpaceOrTab (c : Char) : Bool := c == ' ' || c == '\t'

/-- The text without the characters of a class at its end. -/
def dropWhileEnd (p : Char → Bool) : List Char → List Char
  | [] => []
  | c :: rest =>
    match dropWhileEnd p rest with
    | [] => if p c then [] else [c]
    | kept => c :: kept

/-- The text without the characters of a class at either end. -/
def trimBy (p : Char → Bool) (t : List Char) : List Char := dropWhileEnd p (t.dropWhile p)

/-- The text without surrounding blank characters. -/
def trim (t : List Char) : List Char := trimBy isBlank t

/-! ## Laws -/

theorem isBlank_of_isSpaceOrTab {c : Char} (h : isSpaceOrTab c = true) : isBlank c = true := by
  simp only [isSpaceOrTab, Bool.or_eq_true, beq_iff_eq] at h
  rcases h with rfl | rfl <;> decide

end Interop.Text
