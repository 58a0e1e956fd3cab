import Interop.Text.Blank

/-!
# Pointer types

One spelling for pointers: a star stands directly after what it points to, one space separates it
from a name that follows, and nothing separates it from a closing character.  `int *` becomes
`int*`, and `delegate*unmanaged<int *, void>` becomes `delegate* unmanaged<int*, void>`.
-/

set_option autoImplicit false

namespace Interop.Source

open Text

/-- The text without the blanks that stand directly before a star. -/
def dropBlanksBeforeStars : List Char → List Char
  | [] => []
  | c :: rest =>
    let kept := dropBlanksBeforeStars rest
    if isBlank c ∧ kept.head? = some '*' then kept else c :: kept

/-- The characters that begin a name: ASCII letters, the underscore and the escape mark. -/
def beginsName (c : Char) : Bool := c.isAlpha || c == '_' || c == '@'

/-- The characters that a star stands directly before. -/
def closesType (c : Char) : Bool :=
  c == ',' || c == '>' || c == ')' || c == ']' || c == '[' || c == ';'

/-- The text after a star: one space before a name, none before a closing character, and anything
else as it is. -/
def spaceAfterStar (rest : List Char) : List Char :=
  match rest.dropWhile isSpaceOrTab with
  | [] => rest
  | c :: next =>
    if beginsName c then ' ' :: c :: next
    else if closesType c then c :: next
    else rest

/-- The text with the space after every star set. -/
def spaceAfterStars : List Char → List Char
  | [] => []
  | c :: rest =>
    let spaced := spaceAfterStars rest
    if c = '*' then '*' :: spaceAfterStar spaced else c :: spaced

/-- The one spelling of a type. -/
def normalizePointers (t : List Char) : List Char :=
  spaceAfterStars (dropBlanksBeforeStars (trim t))

end Interop.Source
