import Interop.Proofs.Source.Comments
import Interop.Proofs.Source.Literals
import Interop.Proofs.Text.Cuts

/-!
# Literals in files

A name stands in a file between quotes, on a line that begins with a mark of its own.  A file is read
here the way the compiler reads it: line by line, with whatever literal stands behind the mark
(`literalsAfter`).

The name is written as it is, so it may hold line breaks, and each of these begins a new line, which
may begin with a mark.  What the lines of a name say is therefore not known.  Two things are: the
literal that the mark begins is the name exactly if the name can be quoted (`literalsAfter_quoted`),
and a text that is hardly longer than the name has no room for the mark and the whole name
(`Aside.harmless`).  The second is about the lines above, which have the name of the library too, in
the banner and in the title of the class.
-/

set_option autoImplicit false

namespace Interop.Source

open Binding Text

/-! ## Reading literals -/

/-- What stands before the name of the library. -/
def libraryMark : List Char := "private const string LibraryName = ".toList

/-- What stands before the native name of a function. -/
def entryMark : List Char := "[DllImport(LibraryName, EntryPoint = ".toList

/-- The literal behind a mark, if a line begins with the mark. -/
def literalAfter? (mark line : List Char) : Option (Option (List Nat)) :=
  (mark.isPrefixOf? line).map literal?

/-- The literals behind a mark, line by line; there is none where none can be read. -/
def literalsAfter (mark : List Char) (lines : List (List Char)) : List (Option (List Nat)) :=
  (visible lines).filterMap (literalAfter? mark)

variable {mark : List Char}

theorem literalsAfter_append (mark : List Char) (xs ys : List (List Char)) :
    literalsAfter mark (xs ++ ys) = literalsAfter mark xs ++ literalsAfter mark ys := by
  rw [literalsAfter, visible_append, List.filterMap_append]
  rfl

theorem literalsAfter_cons (mark line : List Char) (lines : List (List Char)) :
    literalsAfter mark (line :: lines) = literalsAfter mark [line] ++ literalsAfter mark lines :=
  literalsAfter_append mark [line] lines

theorem literalsAfter_flatMap {α : Type} (mark : List Char) (f : α → List (List Char))
    (xs : List α) :
    literalsAfter mark (xs.flatMap f) = xs.flatMap fun x => literalsAfter mark (f x) := by
  induction xs with
  | nil => rfl
  | cons x xs ih => rw [List.flatMap_cons, List.flatMap_cons, literalsAfter_append, ih]

/-- Lines that are moved to the right say the same. -/
theorem literalsAfter_shift (mark : List Char) (columns : Nat) (lines : List (List Char)) :
    literalsAfter mark ((lines.map (shiftLine columns)).map trimLine)
      = literalsAfter mark (lines.map trimLine) := by
  have hcomm : (lines.map (shiftLine columns)).map trimLine
      = (lines.map trimLine).map (shiftLine columns) := by
    rw [List.map_map, List.map_map]
    exact List.map_congr_left fun line _ => trimLine_shiftLine columns line
  rw [hcomm, literalsAfter, visible_shift]
  rfl

/-- The literals of a line. -/
theorem mem_literalsAfter {lines : List (List Char)} {r : Option (List Nat)}
    (h : r ∈ literalsAfter mark lines) :
    ∃ line ∈ lines, ∃ rest, unindent line = mark ++ rest ∧ r = literal? rest := by
  obtain ⟨seen, hseen, hr⟩ := List.mem_filterMap.mp h
  obtain ⟨line, hline, rfl⟩ := List.mem_map.mp (List.mem_filter.mp hseen).1
  obtain ⟨rest, hrest, rfl⟩ := Option.map_eq_some_iff.mp hr
  exact ⟨line, hline, rest, (List.isPrefixOf?_eq_some_iff_append_eq.mp hrest).symm, rfl⟩

/-- A line without the mark says nothing, whether or not its end is trimmed. -/
theorem literalsAfter_other {line : List Char} (h : mark.isPrefixOf (unindent line) = false) :
    literalsAfter mark [trimLine line] = [] := by
  have hshort : mark.isPrefixOf (unindent (trimLine line)) = false :=
    isPrefixOf_mono (unindent_mono (prefixOf_dropWhileEnd line)) h
  rw [List.eq_nil_iff_forall_not_mem]
  intro r hr
  obtain ⟨line', hline, rest, hrest, -⟩ := mem_literalsAfter hr
  rw [List.mem_singleton.mp hline] at hrest
  rw [hrest, isPrefixOf_append] at hshort
  cases hshort

theorem literalsAfter_marked {line rest : List Char} (hmark : mark ≠ [])
    (h : unindent line = mark ++ rest) : literalsAfter mark [line] = [literal? rest] := by
  have hne : unindent line ≠ [] := by
    rw [h]
    exact List.append_ne_nil_of_left_ne_nil hmark rest
  have hread : literalAfter? mark (unindent line) = some (literal? rest) := by
    rw [h, literalAfter?, isPrefixOf?_append]
    rfl
  rw [literalsAfter, visible_cons hne, List.filterMap_cons, hread]
  rfl

/-- Only what stands behind a filled place can be trimmed. -/
theorem trimLine_append {c : Char} (hc : isSpaceOrTab c = false) (a b : List Char) :
    trimLine (a ++ c :: b) = a ++ c :: trimLine b := by
  have hfilled : dropWhileEnd isSpaceOrTab (c :: b) = c :: trimLine b :=
    dropWhileEnd_cons_of_neg hc b
  rw [trimLine, dropWhileEnd_append, hfilled, if_neg (List.cons_ne_nil _ _)]

/-! ## Lines beside the mark -/

/-- A beginning of lines none of which have the mark. -/
structure Aside (mark a : List Char) : Prop where
  singleLine : SingleLine a
  other : ∀ rest, mark.isPrefixOf (unindent (a ++ rest)) = false

variable {breaks : Char → Bool} {a b n more : List Char}

/-- Behind such a beginning only the lines below the first can say something. -/
theorem Aside.exists_others (h : Aside mark a) (hcuts : Cuts breaks) (b : List Char) :
    ∃ first others, cut breaks b = first :: others
      ∧ literalsAfter mark ((cut breaks (a ++ b)).map trimLine)
        = literalsAfter mark (others.map trimLine) := by
  obtain ⟨first, others, hlines, -, -⟩ := exists_cut breaks b
  refine ⟨first, others, hlines, ?_⟩
  rw [cut_append h.singleLine hcuts, hlines]
  show literalsAfter mark (trimLine (a ++ first) :: others.map trimLine) = _
  rw [literalsAfter_cons, literalsAfter_other (h.other first), List.nil_append]

theorem Aside.silent (h : Aside mark a) (hcuts : Cuts breaks) (hb : ∀ c ∈ b, breaks c = false)
    (hlast : b.getLast? ≠ some '\r') :
    literalsAfter mark ((cut breaks (a ++ b)).map trimLine) = [] := by
  obtain ⟨first, others, hlines, hsame⟩ := h.exists_others hcuts b
  rw [cut_of_unbroken hb hcuts.newline hlast] at hlines
  cases hlines
  exact hsame

/-- A text that is hardly longer than a name has no room for the mark and the name. -/
theorem Aside.harmless (h : Aside mark a) (hcuts : Cuts breaks) (hmark : mark ≠ [])
    (hb : (utf16 b).length ≤ (utf16 n).length + 2) :
    ∀ r ∈ literalsAfter mark ((cut breaks (a ++ b)).map trimLine), r ≠ some (utf16 n) := by
  rintro r hr rfl
  obtain ⟨first, others, hlines, hsame⟩ := h.exists_others hcuts b
  rw [hsame] at hr
  obtain ⟨line, hline, rest, hrest, hread⟩ := mem_literalsAfter hr
  obtain ⟨whole, hwhole, rfl⟩ := List.mem_map.mp hline
  obtain ⟨first', others', hlines', -, hparts⟩ := exists_cut breaks b
  rw [hlines] at hlines'
  cases hlines'
  have hroom : (utf16 (mark ++ rest)).length ≤ (utf16 b).length := by
    rw [← hrest]
    refine utf16_length_le (.trans ?_ (hparts whole hwhole).sublist)
    exact (List.dropWhile_sublist _).trans (prefixOf_dropWhileEnd whole).sublist
  have hliteral := literal?_length hread.symm
  have hmarked := length_le_utf16 mark
  have hpos := List.length_pos_iff.mpr hmark
  rw [utf16_append, List.length_append] at hroom
  omega

/-! ## The line of a name -/

/-- A name that stands for itself in its literal, and that no break cuts. -/
def Quotable (breaks : Char → Bool) (n : List Char) : Prop :=
  ∀ c ∈ n, Literal c ∧ breaks c = false

instance (breaks : Char → Bool) (n : List Char) : Decidable (Quotable breaks n) :=
  List.decidableBAll (fun c => Literal c ∧ breaks c = false) n

/-- What stands behind a name and its quote: it ends visibly on the same line, and has no quotes. -/
structure Closing (more : List Char) : Prop where
  singleLine : SingleLine more
  quote : '"' ∉ more
  last : ∃ init c, more = init ++ [c] ∧ isBlank c = false

/-- A name in quotes and what stands behind it. -/
theorem Closing.quoted (h : Closing more) (n : List Char) :
    trimLine (n ++ '"' :: more) = n ++ '"' :: more
      ∧ (n ++ '"' :: more).getLast? ≠ some '\r' := by
  obtain ⟨init, c, rfl, hc⟩ := h.last
  have hsplit : n ++ '"' :: (init ++ [c]) = n ++ '"' :: init ++ [c] := by simp
  rw [hsplit]
  refine ⟨dropWhileEnd_concat (isSpaceOrTab_eq_false hc), ?_⟩
  rw [List.getLast?_concat]
  rintro heq
  cases heq
  exact absurd hc (by decide)

/-- A line with the mark behind some spaces says what stands in quotes behind it. -/
theorem literalsAfter_gap {gap : List Char} (hgap : ∀ c ∈ gap, c = ' ')
    (hmark : ∃ c rest, mark = c :: rest ∧ isBlank c = false) (first : List Char) :
    literalsAfter mark [trimLine ((gap ++ mark ++ ['"']) ++ first)]
      = [literal? ('"' :: trimLine first)] := by
  obtain ⟨c, rest, rfl, hc⟩ := hmark
  refine literalsAfter_marked (List.cons_ne_nil _ _) ?_
  have hblank : ∀ c ∈ gap, isBlank c = true := by
    intro c hc
    rw [hgap c hc]
    decide
  rw [List.append_assoc, List.singleton_append, trimLine_append (by decide), List.append_assoc,
    unindent, List.dropWhile_append_of_pos hblank, List.cons_append,
    List.dropWhile_cons_of_neg (by simp [hc])]

/-- The literal of a name in quotes behind the mark is the first thing that the lines say.  It is
the name if the name can be quoted, and then they say nothing else. -/
theorem literalsAfter_quoted (hcuts : Cuts breaks) {gap more : List Char}
    (hgap : ∀ c ∈ gap, c = ' ') (hmark : ∃ c rest, mark = c :: rest ∧ isBlank c = false)
    (hmarkLine : SingleLine mark) (hmore : Closing more) (n : List Char) :
    ∃ r others, literalsAfter mark
        ((cut breaks (gap ++ mark ++ '"' :: (n ++ '"' :: more))).map trimLine) = r :: others
      ∧ (r = some (utf16 n) ↔ Quotable breaks n) ∧ (Quotable breaks n → others = []) := by
  obtain ⟨first, lines, hlines, -, -⟩ := exists_cut breaks (n ++ '"' :: more)
  have hsplit : gap ++ mark ++ '"' :: (n ++ '"' :: more)
      = (gap ++ mark ++ ['"']) ++ (n ++ '"' :: more) := by simp
  have hfront : SingleLine (gap ++ mark ++ ['"']) := by
    have hspaces : SingleLine gap := by
      intro c hc
      rw [hgap c hc]
      decide
    rw [singleLine_append, singleLine_append]
    exact ⟨⟨hspaces, hmarkLine⟩, by decide⟩
  refine ⟨literal? ('"' :: trimLine first), literalsAfter mark (lines.map trimLine), ?_, ?_⟩
  · rw [hsplit, cut_append hfront hcuts, hlines]
    show literalsAfter mark (trimLine ((gap ++ mark ++ ['"']) ++ first) :: lines.map trimLine) = _
    rw [literalsAfter_cons, literalsAfter_gap hgap hmark]
    rfl
  by_cases hbreak : ∃ c ∈ n, breaks c = true
  · -- The literal is cut off inside the name.
    have hcut : literal? ('"' :: trimLine first) ≠ some (utf16 n) :=
      literal?_cut ((prefixOf_dropWhileEnd first).trans (prefix_first_cut hlines hbreak))
    have hnot : ¬ Quotable breaks n := by
      intro h
      obtain ⟨c, hc, hbreaks⟩ := hbreak
      rw [(h c hc).2] at hbreaks
      cases hbreaks
    exact ⟨iff_of_false hcut hnot, fun h => absurd h hnot⟩
  · have hunbroken : ∀ c ∈ n, breaks c = false := fun c hc => by
      simpa using fun hb => hbreak ⟨c, hc, hb⟩
    have hclosing : SingleLine ('"' :: more) := singleLine_cons.mpr ⟨rfl, hmore.singleLine⟩
    have hwhole : ∀ c ∈ n ++ '"' :: more, breaks c = false :=
      List.forall_mem_append.mpr ⟨hunbroken, hcuts.unbroken hclosing⟩
    obtain ⟨htrim, hlast⟩ := hmore.quoted n
    rw [cut_of_unbroken hwhole hcuts.newline hlast] at hlines
    cases hlines
    rw [htrim, literal?_quoted_iff hmore.quote]
    refine ⟨⟨fun h c hc => ⟨h c hc, hunbroken c hc⟩, fun h c hc => (h c hc).1⟩, fun _ => rfl⟩

/-! ## The lines of a file -/

theorem trimmedLines_cut (t rest : List Char) :
    trimmedLines (t ++ '\n' :: rest)
      = (cut (· == '\n') t).map trimLine ++ trimmedLines rest := by
  unfold trimmedLines
  rw [splitOn_unixNewlines, List.map_append]
  rfl

theorem trimmedLines_terminate_cut (lines : List (List Char)) (rest : List Char) :
    trimmedLines (terminate lines ++ rest)
      = (lines.flatMap (cut (· == '\n'))).map trimLine ++ trimmedLines rest := by
  induction lines with
  | nil => rfl
  | cons line lines ih =>
    have hsplit : terminate (line :: lines) ++ rest = line ++ '\n' :: (terminate lines ++ rest) := by
      simp [terminate]
    rw [hsplit, trimmedLines_cut, ih, List.flatMap_cons, List.map_append, List.append_assoc]

theorem rows_eq_cut (t : List Char) : rows t = cut isLineBreak t := splitLines_newline_eq_cut t

theorem rows_terminate_cut (lines : List (List Char)) (rest : List Char) :
    rows (terminate lines ++ rest) = lines.flatMap (cut isLineBreak) ++ rows rest := by
  induction lines with
  | nil => rfl
  | cons line lines ih =>
    have hsplit : terminate (line :: lines) ++ rest = line ++ '\n' :: (terminate lines ++ rest) := by
      simp [terminate]
    rw [hsplit, rows_append, ih, rows_eq_cut, List.flatMap_cons, List.append_assoc]

theorem literalsAfter_memberRows (mark : List Char) (texts : List (List Char)) :
    literalsAfter mark ((memberRows texts).map trimLine)
      = texts.flatMap fun t => literalsAfter mark ((rows t).map trimLine) := by
  have hbelow (ts : List (List Char)) :
      literalsAfter mark ((ts.flatMap fun t => [] :: rows t).map trimLine)
        = ts.flatMap fun t => literalsAfter mark ((rows t).map trimLine) := by
    rw [List.map_flatMap, literalsAfter_flatMap]
    rfl
  cases texts with
  | nil => rfl
  | cons t ts => rw [memberRows, List.map_append, literalsAfter_append, hbelow, List.flatMap_cons]

namespace Generator

/-- What cuts the lines of the class: inside a namespace it is indented, and every line break
does. -/
def classBreaks (g : Generator) : Char → Bool :=
  match g.namespaceTitle with
  | none => (· == '\n')
  | some _ => isLineBreak

theorem cuts_classBreaks (g : Generator) : Cuts g.classBreaks := by
  unfold classBreaks
  split
  · exact cuts_newline
  · exact cuts_isLineBreak

/-- The lines above the class. -/
def above (g : Generator) : List (List Char) :=
  match g.namespaceTitle with
  | none => g.head
  | some name => g.head ++ namespaceHead name

end Generator

variable {g : Generator} {p : Profile} {cls text : List Char} {texts : List (List Char)}

theorem classText_eq (hp : g.profile = .ok p) (texts : List (List Char)) :
    classText p texts = .ok (terminate g.classHead ++ '\n' :: bodyText texts) := by
  obtain rfl := Except.ok.inj (hp.symm.trans (g.profile_eq (Generator.libraryName_ne_empty hp)))
  refine congrArg Except.ok ?_
  unfold Generator.classHead Generator.classTitleLine Generator.libraryNameLine bodyText terminate
  simp only [List.flatMap_cons, List.flatMap_nil, List.append_assoc]
  rfl

/-- Lines with a brace say nothing. -/
def Braceless (mark : List Char) : Prop :=
  literalsAfter mark [['\x7b']] = [] ∧ literalsAfter mark [['\x7d']] = []

/-- The rows of the body of a class say what its members say. -/
theorem literalsAfter_bodyRows (hmark : Braceless mark) (texts : List (List Char)) :
    literalsAfter mark (([] :: ((memberRows texts).map (shiftLine 4) ++ [['\x7d']])).map trimLine)
      = texts.flatMap fun t => literalsAfter mark ((rows t).map trimLine) := by
  have hbrace : literalsAfter mark ([['\x7d']].map trimLine) = [] := hmark.2
  show literalsAfter mark (((memberRows texts).map (shiftLine 4) ++ [['\x7d']]).map trimLine) = _
  rw [List.map_append, literalsAfter_append, hbrace, List.append_nil, literalsAfter_shift,
    literalsAfter_memberRows]

/-- The literals of a file: those above the class, those of the class, and those of its members. -/
theorem literalsAfter_fileText (hp : g.profile = .ok p) (hbounded : ∀ t ∈ texts, Bounded t)
    (hmark : Braceless mark)
    (ht : fileText p (terminate g.classHead ++ '\n' :: bodyText texts) = .ok text) :
    literalsAfter mark (trimmedLines text) =
      literalsAfter mark ((g.above.flatMap (cut (· == '\n'))).map trimLine)
        ++ literalsAfter mark ((g.classHead.flatMap (cut g.classBreaks)).map trimLine)
        ++ texts.flatMap fun t => literalsAfter mark ((rows t).map trimLine) := by
  have hclose : literalsAfter mark [['\x7d'], []] = [] := by
    rw [literalsAfter_cons, hmark.2]
    rfl
  rw [fileText_eq hp] at ht
  obtain rfl := Except.ok.inj ht
  unfold Generator.above Generator.classBreaks
  cases g.namespaceTitle with
  | none =>
    -- Outside a namespace the class stands in the file as it is.
    have hbody : terminate g.classHead ++ '\n' :: bodyText texts ++ ['\n'] =
        terminate g.classHead ++ ([] ++ '\n' ::
          (terminate ((memberRows texts).map (shiftLine 4)) ++ ['\x7d', '\n'])) := by
      rw [bodyText_eq hbounded]
      simp
    have hend : trimmedLines ['\x7d', '\n'] = [['\x7d'], []] := rfl
    dsimp only
    rw [hbody, trimmedLines_terminate_cut, trimmedLines_terminate_cut, trimmedLines_cut,
      (trimmedLines_terminate (singleLine_shifted_memberRows texts) (by decide)).1, hend]
    simp only [literalsAfter_append, literalsAfter_shift, literalsAfter_memberRows, hclose]
    have hgap : literalsAfter mark ((cut (· == '\n') []).map trimLine) = [] := rfl
    rw [hgap, List.nil_append, List.append_nil, List.append_assoc]
  | some name =>
    -- Inside one its rows are indented, and each row is a line from then on.
    have hrows : rows (terminate g.classHead ++ '\n' :: bodyText texts) =
        g.classHead.flatMap (cut isLineBreak)
          ++ ([] :: ((memberRows texts).map (shiftLine 4) ++ [['\x7d']])) := by
      rw [rows_terminate_cut, ← rows_bodyText hbounded]
      rfl
    have hbegins : Begins (terminate g.classHead ++ '\n' :: bodyText texts) := begins_p _
    have hlines : ∀ line ∈ (rows (terminate g.classHead ++ '\n' :: bodyText texts)).map
        (shiftLine 4), SingleLine line := singleLine_map_shiftLine (fun _ => singleLine_of_mem_rows) 4
    have hend : trimmedLines ['\x7d', '\n'] = [['\x7d'], []] := rfl
    show literalsAfter mark (trimmedLines (_ ++ (indent _ ++ '\n' :: ['\x7d', '\n']))) = _
    rw [indent_append_newline hbegins, trimmedLines_terminate_cut,
      (trimmedLines_terminate hlines (by decide)).1, hend, hrows]
    rw [literalsAfter_append, literalsAfter_append, literalsAfter_shift, List.map_append,
      literalsAfter_append, literalsAfter_bodyRows hmark, hclose, List.append_nil, List.append_assoc]

/-! ## Above the name of the library -/

/-- The names of a generator besides that of the library are one line each. -/
structure Generator.Framed (g : Generator) : Prop where
  className : ∀ s, g.className = some s → SingleLine s.toList
  namespaceName : ∀ s, g.namespaceName = some s → SingleLine s.toList
  usings : ∀ s ∈ g.usings, SingleLine s.toList

/-- What a line begins with that is not the one of a name. -/
def beginnings : List (List Char) :=
  [['/', '/'], "//     This code was generated by c2cs from the C declarations of ".toList, ['#'],
   "using ".toList, "namespace ".toList, "public static unsafe partial class ".toList, ['\x7b']]

/-- A line around the name of the library `n`: it begins without the mark, and goes on with text of
one line or with the name. -/
inductive Framing (mark n : List Char) : List Char → Prop
  | blank : Framing mark n []
  | fixed {a b : List Char} (aside : Aside mark a) (singleLine : SingleLine b) :
      Framing mark n (a ++ b)
  | named {a tail : List Char} (aside : Aside mark a) (short : tail = [] ∨ tail = ['.']) :
      Framing mark n (a ++ (n ++ tail))

/-- Such lines never have the name of the library behind the mark. -/
theorem Framing.harmless {line : List Char} (h : Framing mark n line) (hcuts : Cuts breaks)
    (hmark : mark ≠ []) :
    ∀ r ∈ literalsAfter mark ((cut breaks line).map trimLine), r ≠ some (utf16 n) := by
  cases h with
  | blank => exact nofun
  | fixed aside singleLine =>
    rw [aside.silent hcuts (hcuts.unbroken singleLine) singleLine.last_ne_return]
    exact nofun
  | named aside short =>
    refine aside.harmless hcuts hmark ?_
    rcases short with rfl | rfl <;> simp [units]

/-- They say nothing if the name has no breaks. -/
theorem Framing.silent {line : List Char} (h : Framing mark n line) (hcuts : Cuts breaks)
    (hn : ∀ c ∈ n, breaks c = false) (hreturn : '\r' ∉ n) :
    literalsAfter mark ((cut breaks line).map trimLine) = [] := by
  cases h with
  | blank => rfl
  | fixed aside singleLine =>
    exact aside.silent hcuts (hcuts.unbroken singleLine) singleLine.last_ne_return
  | @named a tail aside short =>
    have htail : SingleLine tail := by rcases short with rfl | rfl <;> decide
    refine aside.silent hcuts (List.forall_mem_append.mpr ⟨hn, hcuts.unbroken htail⟩) ?_
    intro hlast
    rcases List.mem_append.mp (List.mem_of_getLast? hlast) with hmem | hmem
    · exact hreturn hmem
    · exact absurd (htail _ hmem) (by decide)

theorem framing_banner (hmark : ∀ a ∈ beginnings, Aside mark a) (n : List Char) :
    ∀ line ∈ banner n, Framing mark n line := by
  have hcomment (b : List Char) (hb : SingleLine b) : Framing mark n (['/', '/'] ++ b) :=
    .fixed (hmark _ (by decide)) hb
  unfold banner
  simp only [List.forall_mem_cons, List.append_assoc]
  refine ⟨hcomment _ (by decide), hcomment _ (by decide), ?_, hcomment [] (by decide),
    hcomment _ (by decide), hcomment _ (by decide), hcomment _ (by decide),
    hcomment _ (by decide), nofun⟩
  exact .named (hmark _ (by decide)) (.inr rfl)

theorem framing_above (hg : g.Framed) (hmark : ∀ a ∈ beginnings, Aside mark a) :
    ∀ line ∈ g.above, Framing mark g.libraryName.toList line := by
  have hsharp (b : List Char) (hb : SingleLine b) : Framing mark g.libraryName.toList (['#'] ++ b) :=
    .fixed (hmark _ (by decide)) hb
  have hhead : ∀ line ∈ g.head, Framing mark g.libraryName.toList line := by
    unfold Generator.head
    simp only [List.forall_mem_append, List.forall_mem_cons]
    refine ⟨⟨⟨framing_banner hmark _, .blank, hsharp _ (by decide), hsharp _ (by decide), .blank,
      nofun⟩, ?_⟩, .blank, nofun⟩
    intro line hline
    obtain ⟨s, hs, rfl⟩ := List.mem_map.mp hline
    rw [List.append_assoc]
    exact .fixed (hmark _ (by decide)) (singleLine_append.mpr ⟨hg.usings s hs, by decide⟩)
  unfold Generator.above
  cases htitle : g.namespaceTitle with
  | none => exact hhead
  | some name =>
    have hname : SingleLine name.toList :=
      hg.namespaceName name (Option.filter_eq_some_iff.mp htitle).1
    refine List.forall_mem_append.mpr ⟨hhead, List.forall_mem_cons.mpr ⟨?_, ?_⟩⟩
    · exact .fixed (hmark _ (by decide)) hname
    · rw [List.forall_mem_singleton, ← List.append_nil ['\x7b']]
      exact .fixed (hmark _ (by decide)) (by decide)

theorem framing_title (hg : g.Framed) (hmark : ∀ a ∈ beginnings, Aside mark a) :
    Framing mark g.libraryName.toList g.classTitleLine := by
  have haside := hmark "public static unsafe partial class ".toList (by decide)
  have hlibrary : Framing mark g.libraryName.toList
      ("public static unsafe partial class ".toList ++ (g.libraryName.toList ++ [])) :=
    .named haside (.inl rfl)
  rw [List.append_nil] at hlibrary
  unfold Generator.classTitleLine Generator.classTitle
  split
  · split
    · exact hlibrary
    · next s hs _ => exact .fixed haside (hg.className s hs)
  · exact hlibrary

/-! ## Emitted files -/

variable {b : Bindings} {e : Emitted}

theorem memberText_bounded {elements : ElementTable} {m : Member} (hm : m.Commented LineComment)
    {t : List Char} (h : memberText elements m = .ok t) : Bounded t := by
  obtain ⟨_, -, hannotated⟩ := (memberText_beside hm).result h
  exact hannotated.ends

theorem literalsAfter_emit (hp : g.profile = .ok p) (hc : b.Commented LineComment)
    (he : emit p b = .ok e) (hmark : Braceless mark) :
    ∃ texts, b.members.mapM (memberText g.elements) = .ok texts
      ∧ literalsAfter mark (splitOn '\n' e.source.toList) =
        literalsAfter mark ((g.above.flatMap (cut (· == '\n'))).map trimLine)
          ++ literalsAfter mark ((g.classHead.flatMap (cut g.classBreaks)).map trimLine)
          ++ texts.flatMap fun t => literalsAfter mark ((rows t).map trimLine) := by
  unfold emit at he
  obtain ⟨texts, htexts, he⟩ := bind_eq_ok.mp he
  obtain ⟨cls, hcls, he⟩ := bind_eq_ok.mp he
  obtain ⟨text, htext, he⟩ := bind_eq_ok.mp he
  cases he
  rw [memberTexts_eq, elements_eq hp] at htexts
  rw [classText_eq hp] at hcls
  cases hcls
  have hbounded : ∀ t ∈ texts, Bounded t := by
    intro t ht
    obtain ⟨m, hm, hmt⟩ := exists_of_forall₂ (mapM_eq_ok.mp htexts) ht
    exact memberText_bounded (hc.member hm) hmt
  refine ⟨texts, htexts, ?_⟩
  rw [String.toList_ofList, literalsAfter, visible_tidy]
  exact literalsAfter_fileText hp hbounded hmark htext

/-! ## The two marks -/

/-- A mark that nothing around the name of the library begins with. -/
structure Marking (mark : List Char) : Prop where
  begins : ∃ c rest, mark = c :: rest ∧ isBlank c = false
  singleLine : SingleLine mark
  apart : ∀ a ∈ beginnings, ¬ mark <+: a ∧ ¬ a <+: mark
  braceless : Braceless mark

theorem Marking.ne_nil (h : Marking mark) : mark ≠ [] := by
  obtain ⟨c, rest, rfl, -⟩ := h.begins
  exact List.cons_ne_nil _ _

theorem Marking.aside (h : Marking mark) : ∀ a ∈ beginnings, Aside mark a := by
  intro a ha
  have hbegin : SingleLine a ∧ a.head?.map isBlank = some false := by
    revert a
    decide
  obtain ⟨hmark, hbeginning⟩ := h.apart a ha
  refine ⟨hbegin.1, fun rest => ?_⟩
  have hfilled : unindent (a ++ rest) = a ++ rest := by
    obtain ⟨c, hc, hblank⟩ := Option.map_eq_some_iff.mp hbegin.2
    obtain ⟨t, rfl⟩ := List.head?_eq_some_iff.mp hc
    exact List.dropWhile_cons_of_neg (by simp [hblank])
  rw [hfilled, ← Bool.not_eq_true, List.isPrefixOf_iff_prefix]
  intro hprefix
  rcases List.prefix_or_prefix_of_prefix hprefix (List.prefix_append a rest) with h | h
  · exact hmark h
  · exact hbeginning h

theorem marking_library : Marking libraryMark where
  begins := ⟨'p', _, rfl, by decide⟩
  singleLine := by decide
  apart := by decide
  braceless := ⟨rfl, rfl⟩

theorem marking_entry : Marking entryMark where
  begins := ⟨'[', _, rfl, by decide⟩
  singleLine := by decide
  apart := by decide
  braceless := ⟨rfl, rfl⟩

/-! ## Above the line of the library -/

/-- The literals that stand above the line of the library. -/
def literalsAbove (mark : List Char) (g : Generator) : List (Option (List Nat)) :=
  g.above.flatMap (fun line => literalsAfter mark ((cut (· == '\n') line).map trimLine))
    ++ [g.classTitleLine, ['\x7b']].flatMap fun line =>
      literalsAfter mark ((cut g.classBreaks line).map trimLine)

theorem framing_class (hmark : Marking mark) (hg : g.Framed) :
    ∀ line ∈ [g.classTitleLine, ['\x7b']], Framing mark g.libraryName.toList line := by
  have hbrace : Framing mark g.libraryName.toList (['\x7b'] ++ []) :=
    .fixed (hmark.aside _ (by decide)) (by decide)
  exact List.forall_mem_cons.mpr ⟨framing_title hg hmark.aside, List.forall_mem_singleton.mpr hbrace⟩

theorem literalsAbove_harmless (hmark : Marking mark) (hg : g.Framed) :
    ∀ r ∈ literalsAbove mark g, r ≠ some (utf16 g.libraryName.toList) := by
  intro r hr
  rcases List.mem_append.mp hr with hr | hr
  · obtain ⟨line, hline, hr⟩ := List.mem_flatMap.mp hr
    exact (framing_above hg hmark.aside line hline).harmless cuts_newline hmark.ne_nil r hr
  · obtain ⟨line, hline, hr⟩ := List.mem_flatMap.mp hr
    exact (framing_class hmark hg line hline).harmless g.cuts_classBreaks hmark.ne_nil r hr

theorem literalsAbove_silent (hmark : Marking mark) (hg : g.Framed)
    (hends : ∀ c ∈ g.libraryName.toList, c ≠ '\n' ∧ c ≠ '\r')
    (hbreaks : ∀ c ∈ g.libraryName.toList, g.classBreaks c = false) : literalsAbove mark g = [] := by
  have hreturn : '\r' ∉ g.libraryName.toList := fun h => (hends _ h).2 rfl
  have hnewline : ∀ c ∈ g.libraryName.toList, (c == '\n') = false := fun c hc => by
    simpa using (hends c hc).1
  unfold literalsAbove
  rw [List.append_eq_nil_iff, List.flatMap_eq_nil_iff, List.flatMap_eq_nil_iff]
  exact ⟨fun line hline =>
      (framing_above hg hmark.aside line hline).silent cuts_newline hnewline hreturn,
    fun line hline =>
      (framing_class hmark hg line hline).silent g.cuts_classBreaks hbreaks hreturn⟩

/-- The literals of a file: those above the line of the library, those of that line, and those of the
members. -/
theorem literalsAfter_source (hp : g.profile = .ok p) (hc : b.Commented LineComment)
    (he : emit p b = .ok e) (hmark : Marking mark) :
    ∃ texts, b.members.mapM (memberText g.elements) = .ok texts
      ∧ literalsAfter mark (splitOn '\n' e.source.toList) =
        literalsAbove mark g
          ++ literalsAfter mark ((cut g.classBreaks g.libraryNameLine).map trimLine)
          ++ texts.flatMap fun t => literalsAfter mark ((rows t).map trimLine) := by
  obtain ⟨texts, htexts, hemit⟩ := literalsAfter_emit hp hc he hmark.braceless
  refine ⟨texts, htexts, ?_⟩
  rw [hemit, literalsAbove, List.map_flatMap, List.map_flatMap, literalsAfter_flatMap,
    literalsAfter_flatMap, Generator.classHead]
  simp only [List.flatMap_cons, List.flatMap_nil, List.append_nil, List.append_assoc]

end Interop.Source
