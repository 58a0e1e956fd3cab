import Interop.Proofs.Binding.Provenance
import Interop.Proofs.Source.Layout

/-!
# Comment lines

The comment of a declaration stands on a line of its own, directly above a line that begins
visibly.  Two files that differ in comments only are related line by line (`Annotated`): one has some
more lines with comments than the other.  The relation goes through everything that is done with the
lines of a file: they are indented, at whatever depth, their ends are trimmed and empty lines are
settled.  What is left without the comment lines is the same (`Annotated.codeLines_settle`).

The strings in a file may be anything here, texts of several lines too; only comments have to be one
line each.
-/

set_option autoImplicit false

namespace Interop.Source

open Binding Text

/-! ## Comment lines -/

/-- Whether a line holds nothing but a comment. -/
def isComment (line : List Char) : Bool := ['/', '/'].isPrefixOf (unindent line)

/-- The lines that are no comments. -/
def codeLines (lines : List (List Char)) : List (List Char) := lines.filter (!isComment ·)

/-- A text without its comment lines. -/
def withoutComments (t : List Char) : List Char := joinLines (codeLines (splitOn '\n' t))

/-- The line begins, after its indentation, with a character that closes no brace. -/
def Leads (line : List Char) : Prop := Begins (unindent line)

theorem isComment_iff {line : List Char} :
    isComment line = true ↔ ∃ rest, unindent line = '/' :: '/' :: rest := by
  rw [isComment, List.isPrefixOf_iff_prefix]
  constructor
  · rintro ⟨rest, h⟩
    exact ⟨rest, h.symm⟩
  · rintro ⟨rest, h⟩
    exact ⟨rest, h.symm⟩

theorem leads_of_isComment {line : List Char} (h : isComment line = true) : Leads line := by
  obtain ⟨rest, hrest⟩ := isComment_iff.mp h
  rw [Leads, hrest]
  exact begins_slash _

theorem Leads.ne_nil {line : List Char} (h : Leads line) : line ≠ [] := by
  rintro rfl
  obtain ⟨c, rest, hcons, _⟩ := h
  exact absurd hcons (by simp [unindent])

theorem Leads.closesBrace {line : List Char} (h : Leads line) : closesBrace line = false := by
  induction line with
  | nil => rfl
  | cons x line ih =>
    by_cases hspace : isSpaceOrTab x = true
    · have hblank := isBlank_of_isSpaceOrTab hspace
      rw [Source.closesBrace, List.dropWhile_cons_of_pos hspace]
      refine ih ?_
      rwa [Leads, unindent, List.dropWhile_cons_of_pos hblank] at h
    · have hbrace : x ≠ '\x7d' := by
        rintro rfl
        obtain ⟨c, rest, hcons, _, hc⟩ := h
        exact hc (List.cons.inj hcons).1.symm
      rw [Source.closesBrace, List.dropWhile_cons_of_neg hspace]
      simpa using hbrace

theorem trimLine_cons {c : Char} (h : isSpaceOrTab c = false) (line : List Char) :
    trimLine (c :: line) = c :: trimLine line := dropWhileEnd_cons_of_neg h line

/-- Trimming the end of a line leaves its beginning alone. -/
theorem unindent_trimLine {line : List Char} {c : Char} {rest : List Char}
    (h : unindent line = c :: rest) (hc : isSpaceOrTab c = false) :
    unindent (trimLine line) = trimLine (c :: rest) := by
  induction line with
  | nil => exact absurd h (by simp [unindent])
  | cons x line ih =>
    by_cases hblank : isBlank x = true
    · rw [unindent, List.dropWhile_cons_of_pos hblank] at h
      -- A blank before the first character stays: trimming takes blanks off the end only.
      have hvisible : dropWhileEnd isSpaceOrTab line ≠ [] := by
        intro hnil
        have ih := ih h
        rw [trimLine, hnil, trimLine_cons hc] at ih
        exact absurd ih (by simp [unindent])
      rw [trimLine, dropWhileEnd_cons, if_neg hvisible, unindent, List.dropWhile_cons_of_pos hblank]
      exact ih h
    · rw [unindent, List.dropWhile_cons_of_neg hblank] at h
      obtain ⟨rfl, rfl⟩ := List.cons.inj h
      rw [trimLine_cons hc, unindent, List.dropWhile_cons_of_neg hblank]

theorem isComment_trimLine {line : List Char} (h : isComment line = true) :
    isComment (trimLine line) = true := by
  obtain ⟨rest, hrest⟩ := isComment_iff.mp h
  refine isComment_iff.mpr ⟨trimLine rest, ?_⟩
  rw [unindent_trimLine hrest rfl, trimLine_cons rfl, trimLine_cons rfl]

theorem Leads.trimLine {line : List Char} (h : Leads line) : Leads (trimLine line) := by
  obtain ⟨c, rest, hrest, hblank, hbrace⟩ := h
  have hspace := isSpaceOrTab_eq_false hblank
  refine ⟨c, Source.trimLine rest, ?_, hblank, hbrace⟩
  rw [unindent_trimLine hrest hspace, trimLine_cons hspace]

theorem isComment_shiftLine {line : List Char} (h : isComment line = true) (columns : Nat) :
    isComment (shiftLine columns line) = true := by
  rw [isComment, unindent_shiftLine]
  exact h

theorem Leads.shiftLine {line : List Char} (h : Leads line) (columns : Nat) :
    Leads (shiftLine columns line) := by
  rw [Leads, unindent_shiftLine]
  exact h

/-! ## Lines with more comments -/

/-- The first lines are the second with some more comment lines, each directly above a line that
begins visibly. -/
inductive Annotated : List (List Char) → List (List Char) → Prop
  | nil : Annotated [] []
  | line (line : List Char) {xs ys : List (List Char)} (below : Annotated xs ys) :
      Annotated (line :: xs) (line :: ys)
  | comment {comment line : List Char} {xs ys : List (List Char)} (hc : isComment comment = true)
      (hl : Leads line) (below : Annotated xs ys) :
      Annotated (comment :: line :: xs) (line :: ys)

namespace Annotated

variable {xs ys xs' ys' : List (List Char)}

theorem refl (xs : List (List Char)) : Annotated xs xs := by
  induction xs with
  | nil => exact .nil
  | cons x xs ih => exact .line x ih

theorem append (h : Annotated xs ys) (h' : Annotated xs' ys') :
    Annotated (xs ++ xs') (ys ++ ys') := by
  induction h with
  | nil => exact h'
  | line line _ ih => exact .line line ih
  | comment hc hl _ ih => exact .comment hc hl ih

theorem map_shiftLine (h : Annotated xs ys) (columns : Nat) :
    Annotated (xs.map (shiftLine columns)) (ys.map (shiftLine columns)) := by
  induction h with
  | nil => exact .nil
  | line line _ ih => exact .line _ ih
  | comment hc hl _ ih => exact .comment (isComment_shiftLine hc columns) (hl.shiftLine columns) ih

theorem map_trimLine (h : Annotated xs ys) :
    Annotated (xs.map trimLine) (ys.map trimLine) := by
  induction h with
  | nil => exact .nil
  | line line _ ih => exact .line _ ih
  | comment hc hl _ ih => exact .comment (isComment_trimLine hc) hl.trimLine ih

/-- **Settling does not see comments.**  A comment takes over the empty line that the line below it
would have above, and stands between the two; nothing else changes. -/
theorem codeLines_settle (h : Annotated xs ys) (above : Option (List Char)) (gap : Bool) :
    codeLines (settle above gap xs) = codeLines (settle above gap ys) := by
  induction h generalizing above gap with
  | nil => rfl
  | line line _ ih =>
    by_cases hne : line = []
    · subst hne
      exact ih above true
    · rw [settle_cons _ _ hne, settle_cons _ _ hne, codeLines, codeLines, List.filter_append,
        List.filter_append, List.filter_cons, List.filter_cons]
      have ih := ih (some line) false
      rw [codeLines, codeLines] at ih
      rw [ih]
  | @comment comment line xs ys hc hl _ ih =>
    -- Both the comment and the line under it lead, so an empty line above the one would be above
    -- the other; between the two there is none.
    have hcomment := leads_of_isComment hc
    have ih := ih (some line) false
    rw [codeLines, codeLines] at ih
    rw [settle_cons _ _ hcomment.ne_nil, settle_cons _ _ hl.ne_nil, settle_cons _ _ hl.ne_nil,
      hcomment.closesBrace, hl.closesBrace, codeLines, codeLines, List.filter_append,
      List.filter_append, List.filter_cons_of_neg (by simp [hc]), List.filter_append,
      List.filter_cons, List.filter_cons, ih]
    rfl

end Annotated

/-- Files whose lines are the same but for comments are the same without them. -/
theorem withoutComments_tidy {t t₀ : List Char}
    (h : Annotated (trimmedLines t) (trimmedLines t₀)) (ht : tidyLines t ≠ [])
    (ht₀ : tidyLines t₀ ≠ []) : withoutComments (tidy t) = withoutComments (tidy t₀) := by
  have hlines (s : List Char) (hs : tidyLines s ≠ []) :
      withoutComments (tidy s) = joinLines (codeLines (tidyLines s) ++ [[]]) := by
    rw [tidy_eq, joinLines_newline hs, withoutComments,
      splitOn_terminate (newline_notMem_tidyLines s), codeLines, List.filter_append]
    rfl
  rw [hlines t ht, hlines t₀ ht₀, tidyLines, tidyLines, h.codeLines_settle]

/-! ## The lines of a text as it is indented -/

/-- The lines of a text, broken at every separator as indenting does. -/
def rows (t : List Char) : List (List Char) := splitLines (t ++ ['\n'])

theorem singleLine_of_mem_rows {t line : List Char} (h : line ∈ rows t) : SingleLine line :=
  singleLine_of_mem_splitLines h

theorem rows_append (a b : List Char) : rows (a ++ '\n' :: b) = rows a ++ rows b := by
  rw [rows, List.append_assoc]
  exact splitLines_append a (b ++ ['\n'])

theorem rows_singleLine {t : List Char} (h : SingleLine t) : rows t = [t] := by
  rw [rows, splitLines_newline h.newlinesOnly, splitOn_of_notMem h.newline_notMem]

theorem rows_terminate {lines : List (List Char)} (h : ∀ line ∈ lines, SingleLine line)
    (t : List Char) : rows (terminate lines ++ t) = lines ++ rows t := by
  rw [rows, List.append_assoc]
  exact splitLines_terminate h (t ++ ['\n'])

/-- What a text begins with is at the start of its first line. -/
theorem rows_begins {t : List Char} (h : Begins t) :
    ∃ line more, rows t = line :: more ∧ Leads line := by
  obtain ⟨c, rest, rfl, hblank, hbrace⟩ := h
  have hbreak := isLineBreak_eq_false hblank
  have hpair (more : List Char) (hc : c = '\r') : rest ++ ['\n'] ≠ '\n' :: more := by
    rw [hc] at hbreak
    exact absurd hbreak (by decide)
  rw [rows, List.cons_append, splitLines_cons hpair (by simp), if_neg (by simp [hbreak])]
  cases hlines : splitLines (rest ++ ['\n']) with
  | nil => exact absurd hlines (splitLines_ne_nil (by simp))
  | cons line more =>
    refine ⟨c :: line, more, rfl, c, line, ?_, hblank, hbrace⟩
    rw [unindent, List.dropWhile_cons_of_neg (by simp [hblank])]

/-- A text that begins visibly is indented line by line, the first line too. -/
theorem indent_eq {t : List Char} (h : Begins t) :
    indent t = joinLines ((rows t).map (shiftLine 4)) := by
  obtain ⟨line, more, hrows, hline⟩ := rows_begins h
  rw [indent]
  rw [rows] at hrows ⊢
  rw [hrows, List.map_cons, shiftLine_of_ne_nil hline.ne_nil]
  rfl

theorem indent_append_newline {t : List Char} (h : Begins t) (rest : List Char) :
    indent t ++ '\n' :: rest = terminate ((rows t).map (shiftLine 4)) ++ rest := by
  obtain ⟨line, more, hrows, -⟩ := rows_begins h
  rw [indent_eq h]
  exact joinLines_append_newline (by rw [hrows]; simp) rest

theorem singleLine_map_shiftLine {lines : List (List Char)} (h : ∀ line ∈ lines, SingleLine line)
    (columns : Nat) : ∀ line ∈ lines.map (shiftLine columns), SingleLine line := by
  intro line hl
  obtain ⟨l, hmem, rfl⟩ := List.mem_map.mp hl
  exact singleLine_shiftLine (h l hmem) columns

/-- The lines of members one below the other, with an empty line between each two. -/
def memberRows : List (List Char) → List (List Char)
  | [] => []
  | t :: ts => rows t ++ ts.flatMap fun x => [] :: rows x

theorem singleLine_of_mem_memberRows {ts : List (List Char)} {line : List Char}
    (h : line ∈ memberRows ts) : SingleLine line := by
  cases ts with
  | nil => exact absurd h (by simp [memberRows])
  | cons t ts =>
    rcases List.mem_append.mp h with h | h
    · exact singleLine_of_mem_rows h
    · obtain ⟨x, -, h⟩ := List.mem_flatMap.mp h
      rcases List.mem_cons.mp h with rfl | h
      · exact fun _ hc => absurd hc (by simp)
      · exact singleLine_of_mem_rows h

/-- A text that begins and ends visibly. -/
def Bounded (t : List Char) : Prop := Begins t ∧ Finishes t

theorem rows_joinMembers {t : List Char} {ts : List (List Char)} (h : ∀ x ∈ t :: ts, Bounded x) :
    rows (joinMembers (t :: ts)) = memberRows (t :: ts) ∧ Begins (joinMembers (t :: ts)) := by
  rw [joinMembers_of_ends h]
  induction ts generalizing t with
  | nil => exact ⟨(List.append_nil _).symm, (h t List.mem_cons_self).1⟩
  | cons next ts ih =>
    obtain ⟨hrows, -⟩ := ih fun x hx => h x (List.mem_cons_of_mem _ hx)
    rw [joinWith_cons _ _ (by simp), List.append_assoc]
    refine ⟨?_, (h t List.mem_cons_self).1.append _⟩
    show rows (t ++ '\n' :: ([] ++ '\n' :: joinWith ['\n', '\n'] (next :: ts))) = _
    rw [rows_append, rows_append, hrows]
    rfl

/-- The text of members inside braces, the closing one included. -/
def bodyText (members : List (List Char)) : List Char :=
  (if (joinMembers members).isEmpty then [] else indent (joinMembers members) ++ ['\n']) ++ ['\x7d']

/-- Members inside braces are one step deeper, line by line. -/
theorem bodyText_eq {members : List (List Char)} (h : ∀ t ∈ members, Bounded t) :
    bodyText members = terminate ((memberRows members).map (shiftLine 4)) ++ ['\x7d'] := by
  cases members with
  | nil => rfl
  | cons t ts =>
    obtain ⟨hrows, hbegins⟩ := rows_joinMembers h
    have hne : (joinMembers (t :: ts)).isEmpty = false := by
      obtain ⟨c, rest, hcons, _⟩ := hbegins
      rw [hcons]
      rfl
    rw [bodyText, hne, if_neg (by simp), List.append_assoc, ← hrows]
    exact indent_append_newline hbegins ['\x7d']

theorem singleLine_shifted_memberRows (ts : List (List Char)) :
    ∀ line ∈ (memberRows ts).map (shiftLine 4), SingleLine line :=
  singleLine_map_shiftLine (fun _ => singleLine_of_mem_memberRows) 4

theorem rows_bodyText {members : List (List Char)} (h : ∀ t ∈ members, Bounded t) :
    rows (bodyText members) = (memberRows members).map (shiftLine 4) ++ [['\x7d']] := by
  have hbrace : SingleLine ['\x7d'] := by decide
  rw [bodyText_eq h, rows_terminate (singleLine_shifted_memberRows members), rows_singleLine hbrace]

/-! ## Declarations -/

/-- A text beside the one with fewer comments. -/
structure AnnotatedText (t t₀ : List Char) : Prop where
  rows : Annotated (rows t) (rows t₀)
  ends : Bounded t
  ends₀ : Bounded t₀

theorem AnnotatedText.refl {t : List Char} (h : Bounded t) : AnnotatedText t t := ⟨.refl _, h, h⟩

theorem annotated_memberRows {ts ts₀ : List (List Char)} (h : List.Forall₂ AnnotatedText ts ts₀) :
    Annotated (memberRows ts) (memberRows ts₀) := by
  have hbelow {ts ts₀ : List (List Char)} (h : List.Forall₂ AnnotatedText ts ts₀) :
      Annotated (ts.flatMap fun x => [] :: rows x) (ts₀.flatMap fun x => [] :: rows x) := by
    induction h with
    | nil => exact .nil
    | cons ht _ ih => exact (Annotated.line [] ht.rows).append ih
  cases h with
  | nil => exact .nil
  | cons ht hts => exact ht.rows.append (hbelow hts)

theorem bounded_of_annotated {ts ts₀ : List (List Char)} (h : List.Forall₂ AnnotatedText ts ts₀) :
    (∀ t ∈ ts, Bounded t) ∧ ∀ t ∈ ts₀, Bounded t := by
  have hflip : List.Forall₂ (fun t₀ t => AnnotatedText t t₀) ts₀ ts := h.flip
  exact ⟨forall_of_forall₂ hflip fun _ _ ht => ht.ends, forall_of_forall₂ h fun _ _ ht => ht.ends₀⟩

/-- The comments of the members of a block are comments in the block. -/
theorem annotated_bodyText {ts ts₀ : List (List Char)} (h : List.Forall₂ AnnotatedText ts ts₀) :
    Annotated (rows (bodyText ts)) (rows (bodyText ts₀)) := by
  obtain ⟨hends, hends₀⟩ := bounded_of_annotated h
  rw [rows_bodyText hends, rows_bodyText hends₀]
  exact ((annotated_memberRows h).map_shiftLine 4).append (.refl _)

/-- A declaration with a comment above its first line beside the one without, the other lines being
annotated themselves. -/
theorem annotated_declaration {comment : String} (hc : LineComment comment)
    {first below below₀ : List Char} (hfirst : Begins first)
    (hbelow : Annotated (rows below) (rows below₀)) (hend : Finishes below)
    (hend₀ : Finishes below₀) :
    AnnotatedText (commentLine comment ++ (first ++ '\n' :: below))
      (commentLine "" ++ (first ++ '\n' :: below₀)) := by
  have hplain : AnnotatedText (first ++ '\n' :: below) (first ++ '\n' :: below₀) := by
    refine ⟨?_, ⟨hfirst.append _, .append _ (.append ['\n'] hend)⟩,
      ⟨hfirst.append _, .append _ (.append ['\n'] hend₀)⟩⟩
    rw [rows_append, rows_append]
    exact (Annotated.refl _).append hbelow
  rcases hc with rfl | ⟨hline, rest, hrest⟩
  · exact hplain
  · have hbegins : Begins comment.toList := by
      rw [← hrest]
      exact begins_slash _
    obtain ⟨line, more, hrows, hleads⟩ := rows_begins hfirst
    have hmark : isComment comment.toList = true := by
      rw [← hrest]
      rfl
    rw [commentLine_append hbegins]
    refine ⟨?_, ⟨hbegins.append _, .append _ (.append ['\n'] hplain.ends.2)⟩, hplain.ends₀⟩
    -- The comment is a line by itself, and the next line is the beginning of the declaration.
    show Annotated _ (rows (first ++ '\n' :: below₀))
    rw [rows_append, rows_append, rows_append, rows_singleLine hline, hrows]
    exact .comment hmark hleads ((Annotated.refl more).append hbelow)

/-- A part of emission with comments beside the part without them. -/
abbrev EmittedBeside {α β : Type} (R : α → β → Prop) :
    Except EmissionError α → Except EmissionError β → Prop :=
  Paired R Eq fun _ => False

theorem functionText_beside {f : Function} (hc : LineComment f.comment) :
    EmittedBeside AnnotatedText (functionText f) (functionText f.uncommented) := by
  have hparameters : f.uncommented.parameters.mapM parameterText = f.parameters.mapM parameterText :=
    List.mapM_map
  rw [functionText_eq, functionText_eq, hparameters]
  refine .after (fun _ => rfl) fun convention _ => ?_
  refine .after (fun _ => rfl) fun signature _ => ?_
  refine .after (fun _ => rfl) fun parameters _ => .ok ?_
  have hend : Finishes (externLine signature (joinWith [',', ' '] parameters)) := by
    unfold externLine
    refine .append _ (.append _ ?_)
    exact .append ('(' :: joinWith [',', ' '] parameters) (finishes_semicolon [')'])
  exact annotated_declaration hc (begins_bracket _) (.refl _) hend hend

variable {elements : ElementTable}

theorem structText_beside {name comment : String} (hc : LineComment comment) {type : TypeUse}
    {members members₀ : List (List Char)} (h : List.Forall₂ AnnotatedText members members₀) :
    EmittedBeside AnnotatedText (structText name comment type members)
      (structText name "" type members₀) := by
  have hbraced (ts : List (List Char)) : "public struct ".toList ++ name.toList
      ++ '\n' :: braced (joinMembers ts) =
        ("public struct ".toList ++ name.toList) ++ '\n' :: (['\x7b'] ++ '\n' :: bodyText ts) := rfl
  have hend (ts : List (List Char)) : Finishes (("public struct ".toList ++ name.toList)
      ++ '\n' :: (['\x7b'] ++ '\n' :: bodyText ts)) :=
    .append _ (.append ['\n', '\x7b', '\n'] (finishes_brace _))
  rw [structText_eq, structText_eq]
  refine .after (fun _ => rfl) fun size _ => ?_
  refine .after (fun _ => rfl) fun pack _ => .ok ?_
  rw [hbraced, hbraced]
  refine annotated_declaration hc (begins_bracket _) ?_ (hend members) (hend members₀)
  rw [rows_append, rows_append, rows_append, rows_append]
  exact (Annotated.refl _).append ((Annotated.refl _).append (annotated_bodyText h))

theorem fieldText_bounded (f : Field) : Ends (fieldText elements f) Bounded fun _ => True := by
  rw [fieldText_eq_lines]
  refine (Ends.any _).bind fun declared _ => ?_
  refine (placement_ends f.offset f.type.sizeOf f.padding).bind fun placement hplacement => ?_
  refine Ends.ok ⟨hplacement.2.append _, .append _ ?_⟩
  exact .append ('\n' :: ("public ".toList ++ declared)) (finishes_semicolon [])

theorem annotated_same {ts : List (List Char)} (h : ∀ t ∈ ts, Bounded t) :
    List.Forall₂ AnnotatedText ts ts :=
  List.forall₂_same.mpr fun t ht => .refl (h t ht)

theorem wrapperText_bounded (f : Field) : Ends (wrapperText elements f) Bounded fun _ => True := by
  refine wrapperText_of_slots Bounded (fun size index => ?_) fun members hmembers => ?_
  · exact (Ends.any _).bind fun field _ => fieldText_bounded field
  · refine ⟨fun ht => ?_, fun _ => trivial⟩
    obtain ⟨_, _, hannotated⟩ :=
      (structText_beside (Or.inl rfl) (annotated_same hmembers)).result ht
    exact hannotated.ends

theorem wrapperTexts_bounded (fields : List Field) :
    Ends (wrapperTexts elements fields) (fun ts => ∀ t ∈ ts, Bounded t) fun _ => True :=
  wrapperTexts_of_each fun f _ => wrapperText_bounded f

theorem wrapperTexts_uncommented (fields : List Field) :
    wrapperTexts elements (fields.map Field.uncommented) = wrapperTexts elements fields := by
  induction fields with
  | nil => rfl
  | cons f rest ih =>
    rw [List.map_cons, wrapperTexts, wrapperTexts, ih]
    rfl

/-- **The text of a struct without comments**, with structs nested in it at any depth. -/
theorem Struct.text_beside {s : Struct} (h : s.Commented LineComment) :
    EmittedBeside AnnotatedText (Struct.text elements s) (Struct.text elements s.uncommented) := by
  induction h with
  | @mk name comment type fields nested hc _ ih =>
    have hfields : (fields.map Field.uncommented).mapM (fieldText elements) =
        fields.mapM (fieldText elements) := List.mapM_map
    rw [Struct.uncommented, Struct.text, Struct.text, nestedUncommented_eq, nestedTexts_eq,
      nestedTexts_eq, hfields, wrapperTexts_uncommented]
    refine .after (fun _ => rfl) fun fs hfs => ?_
    refine .after (fun _ => rfl) fun ws hws => ?_
    refine (Paired.mapM_map ih).bind fun ns ns₀ hns => ?_
    have hfs : ∀ t ∈ fs, Bounded t :=
      forall_of_forall₂ ((Ends.mapM fun f _ => fieldText_bounded f).result hfs) fun _ _ h => h
    have hws : ∀ t ∈ ws, Bounded t := (wrapperTexts_bounded fields).result hws
    -- Fields and wrappers have no comments of their own; only nested structs do.
    refine structText_beside hc (List.rel_append ?_ hns)
    exact annotated_same (List.forall_mem_append.mpr ⟨hfs, hws⟩)

theorem functionPointerText_beside {p : FunctionPointer} (hc : LineComment p.comment) :
    EmittedBeside AnnotatedText (functionPointerText elements p)
      (functionPointerText elements p.uncommented) := by
  refine .after (fun _ => rfl) fun t ht => ?_
  have ht : Bounded t := (fieldText_bounded _).result ht
  exact structText_beside hc (annotated_same (by simpa using ht))

theorem opaqueText_beside {s : OpaqueStruct} (hc : LineComment s.comment) :
    AnnotatedText (opaqueText s) (opaqueText s.uncommented) := by
  have hend : Finishes
      ("public struct ".toList ++ s.name.toList ++ '\n' :: braced (joinMembers [])) :=
    .append _ (.append ['\n'] (finishes_brace _))
  rw [opaqueText_eq, opaqueText_eq]
  exact annotated_declaration hc (begins_bracket _) (.refl _) hend hend

theorem enumText_beside {e : Enumeration} (hc : LineComment e.comment) :
    EmittedBeside AnnotatedText (enumText e) (enumText e.uncommented) := by
  have hmembers : e.uncommented.members.mapM enumMemberText = e.members.mapM enumMemberText :=
    List.mapM_map
  rw [enumText_eq, enumText_eq, hmembers]
  refine .after (fun _ => rfl) fun type _ => ?_
  refine .after (fun _ => rfl) fun members _ => .ok ?_
  have hend : Finishes (['\x7b'] ++ '\n' :: (members.flatten ++ ['\x7d'])) :=
    .append _ (.append ('\n' :: members.flatten) (finishes_brace []))
  exact annotated_declaration hc (begins_p _) (.refl _) hend hend

theorem memberText_beside {m : Member} (h : m.Commented LineComment) :
    EmittedBeside AnnotatedText (memberText elements m) (memberText elements m.uncommented) := by
  cases m with
  | function f => exact functionText_beside h
  | functionPointer p => exact functionPointerText_beside h
  | struct s => exact Struct.text_beside h
  | opaqueStruct s => exact .ok (opaqueText_beside h)
  | enumeration e => exact enumText_beside h

/-! ## Whole files -/

/-- A class beside the one with fewer comments: the same header, and members in braces. -/
def AnnotatedClass (cls cls₀ : List Char) : Prop :=
  ∃ header members members₀, Begins header ∧ List.Forall₂ AnnotatedText members members₀
    ∧ cls = header ++ '\n' :: bodyText members ∧ cls₀ = header ++ '\n' :: bodyText members₀

/-- A file beside the one with fewer comments; neither is empty. -/
structure AnnotatedFile (t t₀ : List Char) : Prop where
  lines : Annotated (trimmedLines t) (trimmedLines t₀)
  filled : tidyLines t ≠ []
  filled₀ : tidyLines t₀ ≠ []

/-- The lines above a newline do not depend on what stands below. -/
theorem trimmedLines_below (above : List Char) :
    ∃ lines, ∀ rest, trimmedLines (above ++ '\n' :: rest) = lines ++ trimmedLines rest := by
  obtain ⟨upper, hupper⟩ := unixNewlines_append above
  refine ⟨(splitOn '\n' upper).map trimLine, fun rest => ?_⟩
  rw [trimmedLines, hupper, splitOn_append, List.map_append]
  rfl

/-- Annotated lines between the same head and the brace at the end. -/
theorem annotatedFile_of_lines (above : List Char) {xs ys : List (List Char)} (h : Annotated xs ys)
    (hxs : ∀ line ∈ xs, SingleLine line) (hys : ∀ line ∈ ys, SingleLine line) :
    AnnotatedFile (above ++ '\n' :: (terminate xs ++ ['\x7d', '\n']))
      (above ++ '\n' :: (terminate ys ++ ['\x7d', '\n'])) := by
  obtain ⟨lines, hlines⟩ := trimmedLines_below above
  have hread (zs : List (List Char)) (hzs : ∀ line ∈ zs, SingleLine line) :
      trimmedLines (above ++ '\n' :: (terminate zs ++ ['\x7d', '\n'])) =
        lines ++ (zs.map trimLine ++ [['\x7d'], []]) := by
    rw [hlines, (trimmedLines_terminate hzs (by decide)).1]
    rfl
  have hfilled (zs : List (List Char)) (hzs : ∀ line ∈ zs, SingleLine line) :
      tidyLines (above ++ '\n' :: (terminate zs ++ ['\x7d', '\n'])) ≠ [] := by
    have hbrace : ['\x7d'] ∈ trimmedLines (above ++ '\n' :: (terminate zs ++ ['\x7d', '\n'])) := by
      rw [hread zs hzs]
      simp
    exact tidyLines_ne_nil hbrace (List.cons_ne_nil _ _)
  refine ⟨?_, hfilled xs hxs, hfilled ys hys⟩
  rw [hread xs hxs, hread ys hys]
  exact (Annotated.refl lines).append (h.map_trimLine.append (.refl _))

theorem classText_beside (p : Profile) {members members₀ : List (List Char)}
    (h : List.Forall₂ AnnotatedText members members₀) :
    EmittedBeside AnnotatedClass (classText p members) (classText p members₀) := by
  refine .after (fun _ => rfl) fun className _ => ?_
  refine .after (fun _ => rfl) fun libraryName _ => .ok ?_
  have hsplit (ts : List (List Char)) : "public static unsafe partial class ".toList ++ className
      ++ "\n\x7b\n    private const string LibraryName = \"".toList ++ libraryName
      ++ "\";\n\n".toList ++ (if (joinMembers ts).isEmpty then []
        else indent (joinMembers ts) ++ ['\n']) ++ ['\x7d'] =
      ("public static unsafe partial class ".toList ++ className
        ++ "\n\x7b\n    private const string LibraryName = \"".toList ++ libraryName
        ++ "\";\n".toList) ++ '\n' :: bodyText ts := by
    unfold bodyText
    simp only [List.append_assoc]
    rfl
  refine ⟨_, members, members₀, ?_, h, hsplit members, hsplit members₀⟩
  exact begins_p _

theorem fileText_beside (p : Profile) {cls cls₀ : List Char} (h : AnnotatedClass cls cls₀) :
    EmittedBeside AnnotatedFile (fileText p cls) (fileText p cls₀) := by
  obtain ⟨header, members, members₀, hbegins, hmembers, rfl, rfl⟩ := h
  unfold fileText
  refine .after (fun _ => rfl) fun libraryName _ => ?_
  refine .after (fun _ => rfl) fun usings _ => ?_
  generalize joinLines (banner libraryName)
    ++ "\n\n#nullable enable\n#pragma warning disable 1591\n\n".toList ++ usings.flatten
    ++ ['\n'] = head
  split
  · -- Inside a namespace the class is indented as a whole.
    refine .after (fun _ => rfl) fun namespaceName _ => .ok ?_
    have hannotated : Annotated ((rows (header ++ '\n' :: bodyText members)).map (shiftLine 4))
        ((rows (header ++ '\n' :: bodyText members₀)).map (shiftLine 4)) := by
      rw [rows_append, rows_append]
      exact ((Annotated.refl (rows header)).append (annotated_bodyText hmembers)).map_shiftLine 4
    have hsingle (cls : List Char) : ∀ line ∈ (rows cls).map (shiftLine 4), SingleLine line :=
      singleLine_map_shiftLine (fun _ => singleLine_of_mem_rows) 4
    have hfile := annotatedFile_of_lines
      (head ++ "namespace ".toList ++ namespaceName ++ "\n\x7b".toList) hannotated (hsingle _)
      (hsingle _)
    rw [← indent_append_newline (hbegins.append _), ← indent_append_newline (hbegins.append _)]
      at hfile
    have hopen : "\n\x7b\n".toList = "\n\x7b".toList ++ ['\n'] := rfl
    simp only [hopen, List.append_assoc, List.cons_append, List.nil_append] at hfile ⊢
    exact hfile
  · -- Without one only the members are, inside the braces of the class.
    obtain ⟨hends, hends₀⟩ := bounded_of_annotated hmembers
    have hfile := annotatedFile_of_lines (head ++ header)
      ((annotated_memberRows hmembers).map_shiftLine 4) (singleLine_shifted_memberRows members)
      (singleLine_shifted_memberRows members₀)
    refine .ok ?_
    rw [bodyText_eq hends, bodyText_eq hends₀]
    simp only [List.append_assoc, List.cons_append, List.nil_append] at hfile ⊢
    exact hfile

/-- **Comments are all that comments change.**  Without them there is a file exactly if there is one
with them; it declares the same names and is the same up to its comment lines. -/
theorem emit_beside (p : Profile) {b : Bindings} (h : b.Commented LineComment) :
    EmittedBeside (fun e e₀ => withoutComments e.source.toList = withoutComments e₀.source.toList
        ∧ e.declaredNames = e₀.declaredNames)
      (emit p b) (emit p b.uncommented) := by
  have hmembers : EmittedBeside (List.Forall₂ AnnotatedText) (memberTexts p.elements b)
      (memberTexts p.elements b.uncommented) := by
    rw [memberTexts_eq, memberTexts_eq, Bindings.members_uncommented]
    exact Paired.mapM_map fun m hm => memberText_beside (h.member hm)
  have hnames : b.uncommented.names = b.names := by
    rw [Bindings.names_eq, Bindings.names_eq, Bindings.members_uncommented, List.map_map]
    exact List.map_congr_left fun m _ => m.name_uncommented
  refine hmembers.bind fun ms ms₀ hms => ?_
  refine (classText_beside p hms).bind fun cls cls₀ hcls => ?_
  refine (fileText_beside p hcls).bind fun t t₀ ht => .ok ⟨?_, hnames.symm⟩
  rw [String.toList_ofList, String.toList_ofList]
  exact withoutComments_tidy ht.lines ht.filled ht.filled₀

end Interop.Source
