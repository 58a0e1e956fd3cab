import Interop.Proofs.Number.Text
import Interop.Proofs.Source.Settle

/-!
# Reading a generated file

A reader of a generated file looks at its lines one by one, without indentation and empty lines
(`visible`).  Two kinds of lines carry layout: the attribute of a struct and the attribute of a field
(`attribute?`).  The lines of an enumeration are its header, an opening brace, its members and a
closing brace (`readEnumerations`).

`Tells` says what a reader learns from some lines, whatever stands below them.  It is closed under
putting lines one below the other, moving them to the right and settling empty lines, so what a file
tells is what its parts tell.
-/

set_option autoImplicit false

namespace Interop.Source

open Text Number

/-! ## Readers -/

/-- What an attribute says, of a struct or of a field. -/
inductive Attribute
  | layout (size pack : Int)
  | place (offset size padding : Int)
deriving DecidableEq, Repr

def layoutMark : List Char := "[StructLayout(LayoutKind.Explicit".toList

def placeMark : List Char := "[FieldOffset(".toList

def enumerationMark : List Char := "public enum ".toList

/-- Reads `[StructLayout(LayoutKind.Explicit, Size = …, Pack = …)]`. -/
def readLayout (line : List Char) : Option Attribute := do
  let t ← (layoutMark ++ ", Size = ".toList).isPrefixOf? line
  let (size, t) ← takeInteger t
  let t ← ", Pack = ".toList.isPrefixOf? t
  let (pack, t) ← takeInteger t
  if t = [')', ']'] then some (.layout size pack) else none

/-- Reads `[FieldOffset(…)] // size = …, padding = …`. -/
def readPlace (line : List Char) : Option Attribute := do
  let t ← placeMark.isPrefixOf? line
  let (offset, t) ← takeInteger t
  let t ← ")] // size = ".toList.isPrefixOf? t
  let (size, t) ← takeInteger t
  let t ← ", padding = ".toList.isPrefixOf? t
  let (padding, t) ← takeInteger t
  if t = [] then some (.place offset size padding) else none

/-- The attribute on a line, if the line begins like one; nothing is read if it goes on in another
way. -/
def attribute? (line : List Char) : Option (Option Attribute) :=
  if layoutMark.isPrefixOf line then some (readLayout line)
  else if placeMark.isPrefixOf line then some (readPlace line)
  else none

/-- Reads `name = value,` as the name and the text of the value. -/
def readEnumMember (line : List Char) : Option (String × List Char) := do
  let name := line.takeWhile (· != ' ')
  let t ← [' ', '=', ' '].isPrefixOf? (line.dropWhile (· != ' '))
  if t.getLast? = some ',' then some (String.ofList name, t.dropLast) else none

/-- The members of the enumerations in a file.  The line below the attribute of a field declares the
field, so it begins no enumeration, whatever the type of the field is called. -/
def readEnumerations : List (List Char) → List (List (Option (String × List Char)))
  | [] => []
  | [_] => []
  | line :: next :: below =>
    if placeMark.isPrefixOf line then readEnumerations below
    else if enumerationMark.isPrefixOf line then
      (below.takeWhile (· != ['\x7d'])).map readEnumMember :: readEnumerations (next :: below)
    else readEnumerations (next :: below)

/-! ## Visible lines -/

/-- A line without the blanks before it. -/
def unindent (line : List Char) : List Char := line.dropWhile isBlank

/-- The lines that hold something, without the blanks before them. -/
def visible (lines : List (List Char)) : List (List Char) :=
  (lines.map unindent).filter (!·.isEmpty)

/-- All attributes of a file, from top to bottom. -/
def attributesOf (source : List Char) : List (Option Attribute) :=
  (visible (splitOn '\n' source)).filterMap attribute?

/-- All enumerations of a file, from top to bottom, with their members. -/
def enumerationsOf (source : List Char) : List (List (Option (String × List Char))) :=
  readEnumerations (visible (splitOn '\n' source))

theorem visible_append (xs ys : List (List Char)) :
    visible (xs ++ ys) = visible xs ++ visible ys := by
  rw [visible, List.map_append, List.filter_append]
  rfl

theorem visible_blank (lines : List (List Char)) : visible ([] :: lines) = visible lines := rfl

theorem visible_cons {line : List Char} (h : unindent line ≠ []) (lines : List (List Char)) :
    visible (line :: lines) = unindent line :: visible lines := by
  rw [visible, List.map_cons, List.filter_cons_of_pos]
  · rfl
  · simpa using h

theorem unindent_shiftLine (columns : Nat) (line : List Char) :
    unindent (shiftLine columns line) = unindent line := by
  have hspace : ∀ c ∈ List.replicate columns ' ', isBlank c = true := by
    intro c hc
    rw [List.eq_of_mem_replicate hc]
    rfl
  rw [shiftLine]
  split
  · next h => rw [h]
  · exact List.dropWhile_append_of_pos hspace

theorem visible_shift (columns : Nat) (lines : List (List Char)) :
    visible (lines.map (shiftLine columns)) = visible lines := by
  rw [visible, List.map_map, visible]
  exact congrArg _ (List.map_congr_left fun line _ => unindent_shiftLine columns line)

/-- Settling empty lines leaves the visible ones alone. -/
theorem visible_settle (above : Option (List Char)) (gap : Bool) (lines : List (List Char)) :
    visible (settle above gap lines) = visible lines := by
  induction lines generalizing above gap with
  | nil => rfl
  | cons line lines ih =>
    by_cases h : line = []
    · subst h
      exact ih above true
    · rw [settle_cons _ _ h, visible_append]
      have hgap (b : Bool) : visible (if b then [[]] else []) = [] := by cases b <;> rfl
      rw [hgap, List.nil_append, ← List.singleton_append, visible_append, ih, ← visible_append]
      rfl

/-- The visible lines of a tidied text are those of the text. -/
theorem visible_tidy (t : List Char) :
    visible (splitOn '\n' (tidy t)) = visible (trimmedLines t) := by
  rw [tidy_eq, ← visible_settle none false (trimmedLines t)]
  show _ = visible (tidyLines t)
  by_cases h : tidyLines t = []
  · rw [h]
    rfl
  · rw [joinLines_newline h, splitOn_terminate (newline_notMem_tidyLines t), visible_append]
    exact List.append_nil _

/-! ## What lines tell -/

/-- What a reader learns from some lines, one below the other. -/
structure Tells (lines : List (List Char)) (attributes : List Attribute)
    (enumerations : List (List (Option (String × List Char)))) : Prop where
  attributes : (visible lines).filterMap attribute? = attributes.map some
  enumerations : ∀ below,
    readEnumerations (visible lines ++ below) = enumerations ++ readEnumerations below

/-- A line that begins neither an attribute nor an enumeration. -/
def Other (line : List Char) : Prop :=
  layoutMark.isPrefixOf line = false ∧ placeMark.isPrefixOf line = false
    ∧ enumerationMark.isPrefixOf line = false

instance (line : List Char) : Decidable (Other line) := inferInstanceAs (Decidable (_ ∧ _ ∧ _))

theorem Other.attribute?_eq {line : List Char} (h : Other line) : attribute? line = none := by
  rw [attribute?, h.1, h.2.1]
  rfl

theorem Other.readEnumerations_cons {line : List Char} (h : Other line)
    (below : List (List Char)) : readEnumerations (line :: below) = readEnumerations below := by
  cases below with
  | nil => rfl
  | cons next below =>
    rw [readEnumerations, h.2.1, h.2.2]
    rfl

/-- What a line begins with shows even if its end is cut off. -/
theorem isPrefixOf_mono {mark line whole : List Char} (h : line <+: whole)
    (hm : mark.isPrefixOf whole = false) : mark.isPrefixOf line = false := by
  rw [← Bool.not_eq_true, List.isPrefixOf_iff_prefix] at hm ⊢
  exact fun hp => hm (hp.trans h)

theorem isPrefixOf_of_head_ne {mark line : List Char} {a b : Char} (hm : mark.head? = some a)
    (hl : line.head? = some b) (h : a ≠ b) : mark.isPrefixOf line = false := by
  cases mark with
  | nil => exact absurd hm (by simp)
  | cons m mark =>
    cases line with
    | nil => rfl
    | cons c line =>
      obtain rfl := Option.some.inj hm
      obtain rfl := Option.some.inj hl
      simp [List.isPrefixOf, h]

theorem Other.mono {line whole : List Char} (h : line <+: whole) (ho : Other whole) : Other line :=
  ⟨isPrefixOf_mono h ho.1, isPrefixOf_mono h ho.2.1, isPrefixOf_mono h ho.2.2⟩

theorem prefixOf_dropWhileEnd {p : Char → Bool} (t : List Char) : dropWhileEnd p t <+: t := by
  induction t with
  | nil => exact List.prefix_refl []
  | cons c t ih =>
    rw [dropWhileEnd_cons]
    split
    · split
      · exact List.nil_prefix
      · exact List.cons_prefix_cons.mpr ⟨rfl, List.nil_prefix⟩
    · exact List.cons_prefix_cons.mpr ⟨rfl, ih⟩

theorem unindent_mono {line whole : List Char} (h : line <+: whole) :
    unindent line <+: unindent whole := by
  obtain ⟨rest, rfl⟩ := h
  induction line with
  | nil => exact List.nil_prefix
  | cons c line ih =>
    rw [unindent, unindent, List.cons_append, List.dropWhile_cons, List.dropWhile_cons]
    split
    · exact ih
    · exact List.prefix_append (c :: line) rest

namespace Tells

variable {lines lines' : List (List Char)} {as as' : List Attribute}
  {es es' : List (List (Option (String × List Char)))}

theorem nil : Tells [] [] [] := ⟨rfl, fun _ => rfl⟩

theorem append (h : Tells lines as es) (h' : Tells lines' as' es') :
    Tells (lines ++ lines') (as ++ as') (es ++ es') where
  attributes := by
    rw [visible_append, List.filterMap_append, h.attributes, h'.attributes, List.map_append]
  enumerations below := by
    rw [visible_append, List.append_assoc, h.enumerations, h'.enumerations, List.append_assoc]

theorem blank (h : Tells lines as es) : Tells ([] :: lines) as es := ⟨h.attributes, h.enumerations⟩

theorem shift (h : Tells lines as es) (columns : Nat) :
    Tells (lines.map (shiftLine columns)) as es := by
  constructor
  · rw [visible_shift]
    exact h.attributes
  · rw [visible_shift]
    exact h.enumerations

/-- A line of another kind tells nothing, whether or not its end is trimmed. -/
theorem other {line : List Char} (h : Other (unindent line)) : Tells [trimLine line] [] [] := by
  have ho : Other (unindent (trimLine line)) := h.mono (unindent_mono (prefixOf_dropWhileEnd line))
  by_cases he : unindent (trimLine line) = []
  · have hv : visible [trimLine line] = [] := by simp [visible, he]
    exact ⟨by rw [hv]; rfl, fun below => by rw [hv]; rfl⟩
  · have hv : visible [trimLine line] = [unindent (trimLine line)] := visible_cons he []
    constructor
    · rw [hv]
      simp [ho.attribute?_eq]
    · intro below
      rw [hv]
      exact ho.readEnumerations_cons below

theorem others {lines : List (List Char)} (h : ∀ line ∈ lines, Other (unindent line)) :
    Tells (lines.map trimLine) [] [] := by
  induction lines with
  | nil => exact nil
  | cons line lines ih =>
    exact (other (h line List.mem_cons_self)).append
      (ih fun l hl => h l (List.mem_cons_of_mem _ hl))

end Tells

/-! ## The two attributes -/

theorem isPrefixOf?_append (a b : List Char) : a.isPrefixOf? (a ++ b) = some b := by
  induction a with
  | nil => cases b <;> rfl
  | cons c a ih => simp [List.isPrefixOf?, ih]

theorem isPrefixOf_append (a b : List Char) : a.isPrefixOf (a ++ b) = true :=
  List.isPrefixOf_iff_prefix.mpr (List.prefix_append a b)

/-- The line with the attribute of a struct. -/
def layoutLine (size pack : Int) : List Char :=
  layoutMark ++ ", Size = ".toList ++ (signedDigits size
    ++ (", Pack = ".toList ++ (signedDigits pack ++ [')', ']'])))

/-- The line with the attribute of a field. -/
def placeLine (offset size padding : Int) : List Char :=
  placeMark ++ (signedDigits offset ++ (")] // size = ".toList ++ (signedDigits size
    ++ (", padding = ".toList ++ signedDigits padding))))

theorem readLayout_layoutLine (size pack : Int) :
    readLayout (layoutLine size pack) = some (.layout size pack) := by
  have hbelowSize : NoDigit (", Pack = ".toList ++ (signedDigits pack ++ [')', ']'])) := rfl
  have hbelowPack : NoDigit [')', ']'] := rfl
  have hsize := takeInteger_signedDigits size hbelowSize
  have hpack := takeInteger_signedDigits pack hbelowPack
  unfold readLayout layoutLine
  rw [isPrefixOf?_append]
  simp only [Option.bind_eq_bind, Option.bind_some, hsize, isPrefixOf?_append, hpack, if_true]

theorem readPlace_placeLine (offset size padding : Int) :
    readPlace (placeLine offset size padding) = some (.place offset size padding) := by
  have hbelowOffset : NoDigit (")] // size = ".toList ++ (signedDigits size
    ++ (", padding = ".toList ++ signedDigits padding))) := rfl
  have hbelowSize : NoDigit (", padding = ".toList ++ signedDigits padding) := rfl
  have hbelowPadding : NoDigit [] := rfl
  have hoffset := takeInteger_signedDigits offset hbelowOffset
  have hsize := takeInteger_signedDigits size hbelowSize
  have hpadding := takeInteger_signedDigits padding hbelowPadding
  rw [List.append_nil] at hpadding
  unfold readPlace placeLine
  rw [isPrefixOf?_append]
  simp only [Option.bind_eq_bind, Option.bind_some, hoffset, isPrefixOf?_append, hsize, hpadding,
    if_true]

theorem attribute?_layoutLine (size pack : Int) :
    attribute? (layoutLine size pack) = some (some (.layout size pack)) := by
  have hmark : layoutMark.isPrefixOf (layoutLine size pack) = true := by
    unfold layoutLine
    rw [List.append_assoc]
    exact isPrefixOf_append _ _
  rw [attribute?, if_pos hmark, readLayout_layoutLine]

theorem attribute?_placeLine (offset size padding : Int) :
    attribute? (placeLine offset size padding) = some (some (.place offset size padding)) := by
  have hmark : placeMark.isPrefixOf (placeLine offset size padding) = true := isPrefixOf_append _ _
  have hlayout : layoutMark.isPrefixOf (placeLine offset size padding) = false := rfl
  rw [attribute?, if_neg (by simp [hlayout]), if_pos hmark, readPlace_placeLine]

/-- The attribute of a struct. -/
theorem tells_layoutLine (size pack : Int) :
    Tells [layoutLine size pack] [.layout size pack] [] where
  attributes := by
    show List.filterMap attribute? [layoutLine size pack] = _
    rw [List.filterMap_cons, attribute?_layoutLine]
    rfl
  enumerations below := by
    cases below with
    | nil => rfl
    | cons next below => rfl

/-- The attribute of a field, and the field below it. -/
theorem tells_placeLine (offset size padding : Int) {line : List Char} (hline : unindent line ≠ [])
    (ha : attribute? (unindent line) = none) :
    Tells [placeLine offset size padding, line] [.place offset size padding] [] := by
  have hmark : placeMark.isPrefixOf (placeLine offset size padding) = true := isPrefixOf_append _ _
  have hplace : unindent (placeLine offset size padding) = placeLine offset size padding := rfl
  have hvisible : visible [placeLine offset size padding, line] =
      [placeLine offset size padding, unindent line] := by
    rw [visible_cons (by rw [hplace]; exact List.cons_ne_nil _ _), visible_cons hline, hplace]
    rfl
  constructor
  · rw [hvisible, List.filterMap_cons, attribute?_placeLine, List.filterMap_cons, ha]
    rfl
  · intro below
    rw [hvisible]
    show readEnumerations (placeLine offset size padding :: unindent line :: below) = _
    rw [readEnumerations, if_pos hmark]
    rfl

/-! ## Enumerations -/

theorem readEnumMember_eq {name : String} (value : List Char) (h : ' ' ∉ name.toList) :
    readEnumMember (name.toList ++ ([' ', '=', ' '] ++ (value ++ [',']))) = some (name, value) := by
  have hname : ∀ c ∈ name.toList, (c != ' ') = true := by
    intro c hc
    simpa using fun he : c = ' ' => h (he ▸ hc)
  unfold readEnumMember
  rw [List.takeWhile_append_of_pos hname, List.dropWhile_append_of_pos hname]
  simp [List.isPrefixOf?]

theorem Other.readEnumerations_append {lines : List (List Char)} (h : ∀ line ∈ lines, Other line)
    (below : List (List Char)) : readEnumerations (lines ++ below) = readEnumerations below := by
  induction lines with
  | nil => rfl
  | cons line lines ih =>
    rw [List.cons_append, (h line List.mem_cons_self).readEnumerations_cons,
      ih fun l hl => h l (List.mem_cons_of_mem _ hl)]

/-- An enumeration: its header, and its members in braces. -/
theorem tells_enumeration {rest : List Char} {members : List (List Char)}
    (h : ∀ line ∈ members, Other line ∧ line ≠ [] ∧ line ≠ ['\x7d'] ∧ unindent line = line) :
    Tells ((enumerationMark ++ rest) :: ['\x7b'] :: (members.map (shiftLine 4) ++ [['\x7d']])) []
      [members.map readEnumMember] := by
  have hmembers : visible (members.map (shiftLine 4)) = members := by
    have hmap : members.map unindent = members :=
      (List.map_congr_left fun line hl => (h line hl).2.2.2).trans (List.map_id members)
    rw [visible_shift, visible, hmap, List.filter_eq_self]
    intro line hl
    simpa using (h line hl).2.1
  have hvisible : visible ((enumerationMark ++ rest) :: ['\x7b'] ::
      (members.map (shiftLine 4) ++ [['\x7d']])) =
      (enumerationMark ++ rest) :: ['\x7b'] :: (members ++ [['\x7d']]) := by
    have hheader : unindent (enumerationMark ++ rest) = enumerationMark ++ rest := rfl
    have hbrace : unindent ['\x7b'] ≠ [] := by decide
    rw [visible_cons (by rw [hheader]; exact List.cons_ne_nil _ _), hheader, visible_cons hbrace,
      visible_append, hmembers]
    rfl
  have hbelow : ∀ line ∈ ['\x7b'] :: (members ++ [['\x7d']]), Other line := by
    intro line hl
    rcases List.mem_cons.mp hl with rfl | hl
    · decide
    · rcases List.mem_append.mp hl with hl | hl
      · exact (h line hl).1
      · rw [List.mem_singleton.mp hl]
        decide
  have hlayout : layoutMark.isPrefixOf (enumerationMark ++ rest) = false := rfl
  have hplace : placeMark.isPrefixOf (enumerationMark ++ rest) = false := rfl
  constructor
  · rw [hvisible, List.filterMap_cons, attribute?, hlayout, hplace]
    simp only [Bool.false_eq_true, if_false, List.map_nil, List.filterMap_eq_nil_iff]
    exact fun line hl => (hbelow line hl).attribute?_eq
  · intro below
    -- The reader stops at the first closing brace, and no member is one.
    have htake : (members ++ [['\x7d']] ++ below).takeWhile (· != ['\x7d']) = members := by
      have hne : ∀ line ∈ members, (line != ['\x7d']) = true := by
        intro line hl
        simpa using (h line hl).2.2.1
      rw [List.append_assoc, List.takeWhile_append_of_pos hne]
      simp
    have hrest := Other.readEnumerations_append hbelow below
    rw [hvisible, List.cons_append, List.cons_append, readEnumerations, hplace,
      isPrefixOf_append enumerationMark rest, htake]
    rw [List.cons_append] at hrest
    rw [hrest]
    rfl

end Interop.Source
