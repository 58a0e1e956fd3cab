import Interop.Proofs.Source.FileLines

/-!
# Emission is local

Every declaration has its place in the generated file, and what stands there is its own text: tidied
by itself, moved to the right and set off by one empty line.  The rest of the file does not depend on
the bindings.  So a change of one declaration is a change of its own lines.

This needs strings that do not reach out of their place: one line each, no braces, and no blanks at
either end (`Plain`).
-/

set_option autoImplicit false

namespace Interop.Source

open Binding Text

/-! ## Plain strings -/

/-- One line without braces that neither begins nor ends with a blank. -/
def Plain (s : String) : Prop :=
  SingleLine s.toList ∧ '\x7b' ∉ s.toList ∧ '\x7d' ∉ s.toList ∧ trim s.toList = s.toList

instance (s : String) : Decidable (Plain s) := inferInstanceAs (Decidable (_ ∧ _ ∧ _ ∧ _))

/-- Plain keywords of elements. -/
def PlainKeywords (elements : ElementTable) : Prop := ∀ entry ∈ elements, Plain entry.2

/-- Plain strings everywhere. -/
def plain : Demand where
  name := Plain
  nativeName := Plain
  typeName := Plain
  comment := Plain
  memberName := Plain
  memberValue _ := True
  convention _ := True
  number _ := True

theorem Plain.last {s : String} (h : Plain s) (hne : s ≠ "") :
    ∃ init c, s.toList = init ++ [c] ∧ isSpaceOrTab c = false := by
  obtain ⟨_, _, _, htrim⟩ := h
  rcases List.eq_nil_or_concat s.toList with he | ⟨init, c, he⟩
  · exact absurd (String.toList_eq_nil_iff.mp he) hne
  · rw [List.concat_eq_append] at he
    rw [he] at htrim
    exact ⟨init, c, he, isSpaceOrTab_eq_false (isBlank_last htrim)⟩

/-- A line that ends in a plain name has nothing to trim. -/
theorem Plain.trimLine_eq {s : String} (h : Plain s) (hne : s ≠ "") (a : List Char) :
    trimLine (a ++ s.toList) = a ++ s.toList := by
  obtain ⟨init, c, he, hc⟩ := h.last hne
  rw [he, ← List.append_assoc]
  exact dropWhileEnd_concat hc

theorem visibleComment_of_plain {s : String} (h : Plain s) : VisibleComment s := by
  by_cases hne : s = ""
  · exact Or.inl hne
  · obtain ⟨hline, _, hbrace, htrim⟩ := h
    refine Or.inr ⟨hline, ?_⟩
    cases hs : s.toList with
    | nil => exact absurd (String.toList_eq_nil_iff.mp hs) hne
    | cons c rest =>
      rw [hs] at htrim hbrace
      exact ⟨c, rest, rfl, isBlank_head htrim, fun h => hbrace (by simp [h])⟩

theorem plain_implies_shown : plain.Implies shown where
  name _ h := h.1
  nativeName _ h := h.1
  typeName _ h := h.1
  comment _ h := visibleComment_of_plain h
  memberName _ h := h.1
  memberValue _ _ := trivial
  convention _ _ := trivial
  number _ _ := trivial

/-! ## The file around its members -/

namespace Generator

/-- Where the lines of members begin. -/
def depth (g : Generator) : Nat :=
  match g.namespaceTitle with
  | none => 4
  | some _ => 8

/-- The lines that open the class, inside its namespace if it has one. -/
def classOpening (g : Generator) : List (List Char) :=
  match g.namespaceTitle with
  | none => g.classHead
  | some name => namespaceHead name ++ g.classHead.map (shiftLine 4)

/-- The lines of a file above its members: the head, the namespaces that it uses, and the lines that
open the class. -/
def opening (g : Generator) : List (List Char) :=
  banner g.libraryName.toList
    ++ [[], "#nullable enable".toList, "#pragma warning disable 1591".toList, []]
    ++ (if g.usings = [] then []
        else g.usings.map (fun s => "using ".toList ++ s.toList ++ [';']) ++ [[]])
    ++ g.classOpening

/-- The lines of a file below its members. -/
def closing (g : Generator) : List (List Char) :=
  match g.namespaceTitle with
  | none => [['\x7d']]
  | some _ => [shiftLine 4 ['\x7d'], ['\x7d']]

end Generator

/-- A member at its place: an empty line, and the lines of its own text moved to the right. -/
def placed (depth : Nat) (text : List Char) : List Char := '\n' :: shift depth (tidy text)

/-- Members at their place, one below the other. -/
def Generator.placedMembers (g : Generator) (ms : List Member) : Except EmissionError (List Char) :=
  (ms.mapM (memberText g.elements)).map fun texts => texts.flatMap (placed g.depth)

/-- A file with the given members. -/
def Generator.source (g : Generator) (members : List Char) : List Char :=
  terminate g.opening ++ members ++ terminate g.closing

/-! ## Blocks of a file -/

theorem settle_of_filled {above : Option (List Char)} {lines : List (List Char)}
    (h : ∀ line ∈ lines, line ≠ []) : settle above false lines = lines := by
  induction lines generalizing above with
  | nil => rfl
  | cons line lines ih =>
    rw [settle_cons _ _ (h line List.mem_cons_self), ih fun l hl => h l (List.mem_cons_of_mem _ hl)]
    rfl

/-- Two empty lines are no more than one. -/
theorem settle_doubled (above : Option (List Char)) (gap : Bool) (xs ys : List (List Char)) :
    settle above gap (xs ++ [] :: [] :: ys) = settle above gap (xs ++ [] :: ys) := by
  induction xs generalizing above gap with
  | nil => rfl
  | cons x xs ih =>
    by_cases h : x = []
    · subst h
      exact ih above true
    · rw [List.cons_append, List.cons_append, settle_cons _ _ h, settle_cons _ _ h, ih]

/-- Lines that have no braces at their ends are a block. -/
theorem block_of_forall {lines : List (List Char)} (hne : lines ≠ [])
    (h : ∀ line ∈ lines, line ≠ [] ∧ closesBrace line = false ∧ opensBrace line = false) :
    Block lines := by
  constructor
  · cases lines with
    | nil => exact absurd rfl hne
    | cons line lines =>
      obtain ⟨h₁, h₂, _⟩ := h line List.mem_cons_self
      exact ⟨line, lines, rfl, h₁, h₂⟩
  · rcases List.eq_nil_or_concat lines with he | ⟨init, line, he⟩
    · exact absurd he hne
    · rw [List.concat_eq_append] at he
      obtain ⟨h₁, _, h₂⟩ := h line (by simp [he])
      exact ⟨init, line, he, h₁, h₂⟩

section Blocks

variable {g : Generator}

/-- The blocks above the members, below the comment at the head of the file. -/
def Generator.blocks (g : Generator) : List (List (List Char)) :=
  ["#nullable enable".toList, "#pragma warning disable 1591".toList]
    :: (if g.usings = [] then [] else [g.usings.map fun s => "using ".toList ++ s.toList ++ [';']])
    ++ [g.classOpening]

/-- The blocks of the members, at their place. -/
def memberBlocks (depth : Nat) (texts : List (List Char)) : List (List (List Char)) :=
  texts.map fun t => (trimmedLines t).map (shiftLine depth)

theorem opening_eq (g : Generator) :
    g.opening = banner g.libraryName.toList ++ g.blocks.flatMap ([] :: ·) := by
  unfold Generator.opening Generator.blocks
  by_cases h : g.usings = []
  · rw [if_pos h, if_pos h]
    simp
  · rw [if_neg h, if_neg h]
    simp

theorem memberLines_eq (depth : Nat) (texts : List (List Char)) :
    [] :: (memberLines texts).map (shiftLine depth) =
      (memberBlocks depth texts).flatMap ([] :: ·) ++ if texts = [] then [[]] else [] := by
  cases texts with
  | nil => rfl
  | cons t ts =>
    have htail : (ts.flatMap fun x => [] :: trimmedLines x).map (shiftLine depth) =
        (memberBlocks depth ts).flatMap ([] :: ·) := by
      rw [memberBlocks, List.map_flatMap, List.flatMap_map]
      rfl
    rw [memberLines, List.map_append, htail, if_neg (by simp), List.append_nil]
    rfl

/-- A line that ends in a semicolon has nothing to trim and opens no brace. -/
theorem trimLine_semicolon (a : List Char) : trimLine (a ++ [';']) = a ++ [';'] :=
  dropWhileEnd_concat rfl

theorem trimLine_banner (name : List Char) : ∀ line ∈ banner name, trimLine line = line := by
  intro line hl
  unfold banner at hl
  simp only [List.mem_cons, List.not_mem_nil, or_false] at hl
  rcases hl with rfl | rfl | rfl | rfl | rfl | rfl | rfl | rfl
  case inr.inr.inl => exact dropWhileEnd_concat rfl
  all_goals rfl

theorem map_trimLine_eq {lines : List (List Char)} (h : ∀ line ∈ lines, trimLine line = line) :
    lines.map trimLine = lines :=
  (List.map_congr_left h).trans (List.map_id lines)

theorem head_trimmed (g : Generator) : g.head.map trimLine = g.head := by
  refine map_trimLine_eq fun line hl => ?_
  simp only [Generator.head, List.mem_append, List.mem_map] at hl
  rcases hl with ((hl | hl) | ⟨s, _, rfl⟩) | hl
  · exact trimLine_banner _ line hl
  · exact (by decide : ∀ l ∈ [[], "#nullable enable".toList, "#pragma warning disable 1591".toList,
      []], trimLine l = l) line hl
  · exact trimLine_semicolon _
  · rw [List.mem_singleton.mp hl]
    rfl

theorem libraryNameLine_eq (g : Generator) :
    g.libraryNameLine = "    private const string LibraryName = \"".toList ++ g.libraryName.toList
      ++ ['"'] ++ [';'] := by
  unfold Generator.libraryNameLine
  rw [List.append_assoc _ ['"']]
  rfl

theorem classHead_trimmed (hg : g.All Plain) (hl : g.libraryName ≠ "") :
    g.classHead.map trimLine = g.classHead := by
  have htitle : g.classTitle ≠ "" := by
    rw [Generator.classTitle]
    split
    · split
      · exact hl
      · rename_i h
        exact fun he => h (String.isEmpty_iff.mpr he)
    · exact hl
  refine map_trimLine_eq fun line hline => ?_
  simp only [Generator.classHead, List.mem_cons, List.not_mem_nil, or_false] at hline
  rcases hline with rfl | rfl | rfl
  · exact hg.classTitle.trimLine_eq htitle _
  · rfl
  · rw [libraryNameLine_eq, trimLine_semicolon]

/-- The lines of a file whose names are plain. -/
theorem lines_eq (hg : g.All Plain) (hl : g.libraryName ≠ "") (members : List (List Char)) :
    g.lines members =
      g.head ++ g.classOpening ++ [] :: members.map (shiftLine g.depth) ++ g.closing ++ [[]] := by
  unfold Generator.lines Generator.bodyLines Generator.classLines Generator.classOpening Generator.depth
    Generator.closing
  rw [head_trimmed, classHead_trimmed hg hl]
  cases htitle : g.namespaceTitle with
  | none => simp only [List.append_assoc]
  | some name =>
    have hname : name ≠ "" := by
      rintro rfl
      exact absurd (Option.filter_eq_some_iff.mp htitle).2 (by decide)
    have htrimmed : (Generator.namespaceHead name).map trimLine = Generator.namespaceHead name := by
      refine map_trimLine_eq fun line hline => ?_
      simp only [Generator.namespaceHead, List.mem_cons, List.not_mem_nil, or_false] at hline
      rcases hline with rfl | rfl
      · exact (hg.namespaceTitle htitle).trimLine_eq hname _
      · rfl
    have hmembers : (members.map (shiftLine 4)).map (shiftLine 4) = members.map (shiftLine 8) := by
      rw [List.map_map]
      exact List.map_congr_left fun line _ => shiftLine_shiftLine 4 4 line
    simp only [htrimmed, List.map_append, List.map_cons, hmembers, List.append_assoc]
    rfl

/-! Every block above the members is filled throughout, so it is tidy as it is. -/

theorem opensBrace_semicolon (a : List Char) : opensBrace (a ++ [';']) = false := by
  simp [opensBrace]

theorem classHead_filled (g : Generator) : ∀ line ∈ g.classHead, line ≠ [] := by
  intro line hl
  simp only [Generator.classHead, List.mem_cons, List.not_mem_nil, or_false] at hl
  rcases hl with rfl | rfl | rfl
  · exact List.cons_ne_nil _ _
  · exact List.cons_ne_nil _ _
  · exact List.cons_ne_nil _ _

theorem classOpening_filled (g : Generator) : ∀ line ∈ g.classOpening, line ≠ [] := by
  unfold Generator.classOpening
  split
  · exact classHead_filled g
  · intro line hl
    simp only [Generator.namespaceHead, List.mem_append, List.mem_cons, List.not_mem_nil, or_false,
      List.mem_map] at hl
    rcases hl with (rfl | rfl) | ⟨l, hl, rfl⟩
    · exact List.cons_ne_nil _ _
    · exact List.cons_ne_nil _ _
    · simpa using classHead_filled g l hl

theorem block_classHead (g : Generator) : Block g.classHead where
  first := ⟨g.classTitleLine, _, rfl, List.cons_ne_nil _ _, rfl⟩
  last := ⟨[g.classTitleLine, ['\x7b']], g.libraryNameLine, rfl, List.cons_ne_nil _ _, by
    rw [libraryNameLine_eq]
    exact opensBrace_semicolon _⟩

theorem block_classOpening (g : Generator) : Block g.classOpening := by
  unfold Generator.classOpening
  split
  · exact block_classHead g
  · rename_i name _
    obtain ⟨init, line, hlast, hfilled, hopens⟩ := ((block_classHead g).map_shiftLine 4).last
    refine ⟨⟨_, _, rfl, List.cons_ne_nil _ _, rfl⟩,
      ⟨Generator.namespaceHead name ++ init, line, ?_, hfilled, hopens⟩⟩
    rw [hlast, List.append_assoc]

theorem block_banner (name : List Char) : Block (banner name) where
  first := ⟨_, _, rfl, List.cons_ne_nil _ _, rfl⟩
  last := ⟨(banner name).take 7, _, rfl, List.cons_ne_nil _ _, rfl⟩

theorem banner_filled (name : List Char) : ∀ line ∈ banner name, line ≠ [] := by
  intro line hl
  unfold banner at hl
  simp only [List.mem_cons, List.not_mem_nil, or_false] at hl
  rcases hl with rfl | rfl | rfl | rfl | rfl | rfl | rfl | rfl <;> exact List.cons_ne_nil _ _

theorem blocks_settled (g : Generator) :
    ∀ lines ∈ g.blocks, Block lines ∧ settle none false lines = lines := by
  intro lines hl
  simp only [Generator.blocks, List.mem_append, List.mem_cons, List.not_mem_nil, or_false] at hl
  rcases hl with (rfl | hl) | rfl
  · exact ⟨⟨⟨_, _, rfl, List.cons_ne_nil _ _, rfl⟩,
      ⟨["#nullable enable".toList], _, rfl, List.cons_ne_nil _ _, rfl⟩⟩, rfl⟩
  · by_cases h : g.usings = []
    · exact absurd (if_pos h ▸ hl) (by simp)
    · rw [if_neg h, List.mem_singleton] at hl
      subst hl
      have hline (line : List Char)
          (hl : line ∈ g.usings.map fun s => "using ".toList ++ s.toList ++ [';']) :
          line ≠ [] ∧ closesBrace line = false ∧ opensBrace line = false := by
        obtain ⟨s, _, rfl⟩ := List.mem_map.mp hl
        exact ⟨List.cons_ne_nil _ _, rfl, opensBrace_semicolon _⟩
      exact ⟨block_of_forall (by simpa using h) hline,
        settle_of_filled fun line hl => (hline line hl).1⟩
  · exact ⟨block_classOpening g, settle_of_filled (classOpening_filled g)⟩

/-- No empty line stands before the braces that close the file. -/
theorem settle_closing {above : List Char} (texts : List (List Char)) (g : Generator) :
    settle (some above) false ((if texts = [] then [[]] else []) ++ (g.closing ++ [[]])) =
      g.closing := by
  unfold Generator.closing
  split <;> split <;> simp [settle, closesBrace, isSpaceOrTab, shiftLine]

/-- Before they are settled, the lines of a file are the comment at its head and blocks with empty
lines before them. -/
theorem settle_lines_eq (hg : g.All Plain) (hl : g.libraryName ≠ "") (texts : List (List Char)) :
    settle none false (g.lines (memberLines texts)) =
      settle none false (banner g.libraryName.toList
        ++ ((g.blocks ++ memberBlocks g.depth texts).flatMap ([] :: ·)
        ++ ((if texts = [] then [[]] else []) ++ (g.closing ++ [[]])))) := by
  have hmembers : [] :: (memberLines texts).map (shiftLine g.depth) ++ g.closing ++ [[]] =
      (memberBlocks g.depth texts).flatMap ([] :: ·)
        ++ ((if texts = [] then [[]] else []) ++ (g.closing ++ [[]])) := by
    rw [memberLines_eq]
    simp only [List.append_assoc]
  have hlines : g.lines (memberLines texts) = g.head ++ g.classOpening
      ++ ([] :: (memberLines texts).map (shiftLine g.depth) ++ g.closing ++ [[]]) := by
    rw [lines_eq hg hl]
    simp only [List.append_assoc]
  rw [hlines, hmembers, List.flatMap_append, List.append_assoc (g.blocks.flatMap _)]
  unfold Generator.head Generator.blocks
  generalize (memberBlocks g.depth texts).flatMap ([] :: ·)
    ++ ((if texts = [] then [[]] else []) ++ (g.closing ++ [[]])) = rest
  generalize banner g.libraryName.toList = comment, "#nullable enable".toList = nullable,
    "#pragma warning disable 1591".toList = pragma
  by_cases h : g.usings = []
  · have hdoubled := settle_doubled none false (comment ++ [[], nullable, pragma])
      (g.classOpening ++ rest)
    rw [h, if_pos rfl]
    simpa using hdoubled
  · rw [if_neg h]
    simp

theorem settle_lines (hg : g.All Plain) (hl : g.libraryName ≠ "") {texts : List (List Char)}
    (ht : ∀ t ∈ texts, Standing t) :
    settle none false (g.lines (memberLines texts)) =
      g.opening ++ texts.flatMap (fun t => [] :: (tidyLines t).map (shiftLine g.depth))
        ++ g.closing := by
  have hblocks : ∀ lines ∈ g.blocks ++ memberBlocks g.depth texts, Block lines := by
    intro lines hlines
    rcases List.mem_append.mp hlines with h | h
    · exact (blocks_settled g lines h).1
    · obtain ⟨t, hmem, rfl⟩ := List.mem_map.mp h
      exact (ht t hmem).block.map_shiftLine g.depth
  obtain ⟨init, last, hlast, hfilled, hopens⟩ := (block_banner g.libraryName.toList).last
  obtain ⟨line, _, hsettled⟩ := settle_blocks hopens hblocks
    ((if texts = [] then [[]] else []) ++ (g.closing ++ [[]]))
  have hopening : g.blocks.flatMap (fun lines => [] :: settle none false lines) =
      g.blocks.flatMap ([] :: ·) :=
    List.flatMap_congr fun lines h => by rw [(blocks_settled g lines h).2]
  have hmembers : (memberBlocks g.depth texts).flatMap (fun lines => [] :: settle none false lines) =
      texts.flatMap fun t => [] :: (tidyLines t).map (shiftLine g.depth) := by
    rw [memberBlocks, List.flatMap_map]
    refine List.flatMap_congr fun t _ => ?_
    exact congrArg ([] :: ·) (settle_map_shiftLine g.depth none false (trimmedLines t))
  rw [settle_lines_eq hg hl, hlast, List.append_assoc, List.singleton_append,
    settle_append none false init hfilled, ← hlast, settle_of_filled (banner_filled _), hsettled,
    List.flatMap_append, hopening, hmembers, settle_closing, opening_eq]
  simp only [List.append_assoc]

end Blocks

/-! ## The whole file -/

/-- The lines of a member at its place. -/
theorem terminate_placed {t : List Char} (h : Standing t) (depth : Nat) :
    terminate ([] :: (tidyLines t).map (shiftLine depth)) = placed depth t := by
  obtain ⟨line, rest, hlines, hfilled, _⟩ := h.block.first
  have hmem : line ∈ trimmedLines t := by
    rw [hlines]
    exact List.mem_cons_self
  rw [placed, shift, tidy_eq, joinLines_newline (tidyLines_ne_nil hmem hfilled),
    splitOn_terminate (newline_notMem_tidyLines t), List.map_append, List.map_singleton,
    shiftLine_nil, joinLines_concat_nil]
  rfl

theorem source_eq {g : Generator} {texts : List (List Char)} (hg : g.All Plain)
    (hl : g.libraryName ≠ "") (ht : ∀ t ∈ texts, Standing t) :
    joinLines (settle none false (g.lines (memberLines texts))) ++ ['\n'] =
      g.source (texts.flatMap (placed g.depth)) := by
  have hmembers : terminate (texts.flatMap fun t => [] :: (tidyLines t).map (shiftLine g.depth)) =
      texts.flatMap (placed g.depth) := by
    rw [terminate, List.flatMap_assoc]
    exact List.flatMap_congr fun t hmem => terminate_placed (ht t hmem) g.depth
  rw [settle_lines hg hl ht, joinLines_newline, terminate_append, terminate_append, hmembers]
  · rfl
  · rw [opening_eq]
    exact List.append_ne_nil_of_left_ne_nil (List.append_ne_nil_of_left_ne_nil
      (List.append_ne_nil_of_left_ne_nil (List.cons_ne_nil _ _) _) _) _

theorem placedMembers_append (g : Generator) (xs ys : List Member) :
    g.placedMembers (xs ++ ys) = do
      return (← g.placedMembers xs) ++ (← g.placedMembers ys) := by
  unfold Generator.placedMembers
  rw [List.mapM_append]
  cases xs.mapM (memberText g.elements) with
  | error e => rfl
  | ok texts =>
    cases ys.mapM (memberText g.elements) with
    | error e => rfl
    | ok texts' => exact congrArg Except.ok List.flatMap_append

/-- The whole file, as an equation between computations. -/
theorem emit_eq_source {g : Generator} (hg : g.All Plain) (hk : PlainKeywords g.elements)
    {p : Profile} (hp : g.profile = .ok p) {b : Bindings} (hb : b.Meets plain) :
    emit p b = (g.placedMembers b.members).map fun members =>
      { source := String.ofList (g.source members), declaredNames := b.members.map Member.name } := by
  have hshown := hb.mono plain_implies_shown
  have hlines : g.All fun s => SingleLine s.toList := hg.mono fun _ h => h.1
  rw [Generator.placedMembers]
  cases htexts : b.members.mapM (memberText g.elements) with
  | error e => exact emit_error hp htexts
  | ok texts =>
    have hkeywords : SingleLineKeywords g.elements := fun entry he => (hk entry he).1
    have hstanding := (memberTexts_standing hkeywords hshown).result htexts
    obtain ⟨text, hemit, htext⟩ := emit_lines hlines hp htexts hstanding
    simp only [hemit, Except.map, tidy, htext]
    rw [source_eq hg (Generator.libraryName_ne_empty hp) hstanding]

/-- The file of members in three parts has their texts in three parts. -/
theorem emit_split {g : Generator} (hg : g.All Plain) (hk : PlainKeywords g.elements)
    {p : Profile} (hp : g.profile = .ok p) {b : Bindings} (hb : b.Meets plain) {above ms below : List Member}
    (hm : b.members = above ++ ms ++ below) {e : Emitted} (he : emit p b = .ok e) :
    ∃ top middle bottom, g.placedMembers above = .ok top ∧ g.placedMembers ms = .ok middle
      ∧ g.placedMembers below = .ok bottom
      ∧ e.source.toList = g.source (top ++ middle ++ bottom) := by
  rw [emit_eq_source hg hk hp hb, hm, placedMembers_append, placedMembers_append] at he
  cases htop : g.placedMembers above with
  | error e => rw [htop] at he; exact absurd he (by simp [Except.map])
  | ok top =>
    cases hmiddle : g.placedMembers ms with
    | error e => rw [htop, hmiddle] at he; exact absurd he (by simp [Except.map])
    | ok middle =>
      cases hbottom : g.placedMembers below with
      | error e => rw [htop, hmiddle, hbottom] at he; exact absurd he (by simp [Except.map])
      | ok bottom =>
        rw [htop, hmiddle, hbottom] at he
        obtain rfl := Except.ok.inj he
        exact ⟨top, middle, bottom, rfl, rfl, rfl, String.toList_ofList⟩

/-- **Emission is local.**  The file is its opening lines, the members in order, each tidied by itself
and set in its place, and the closing braces; it declares one name for each member.  It exists if
every member has a text.  So files whose bindings differ in some members differ in the lines of
these alone. -/
theorem emission_local {g : Generator} (hg : g.All Plain) (hk : PlainKeywords g.elements)
    {p : Profile} (hp : g.profile = .ok p) {b : Bindings} (hb : b.Meets plain) :
    (emit p b = (b.members.mapM (memberText g.elements)).map fun texts =>
      { source := String.ofList (terminate g.opening ++ texts.flatMap (placed g.depth)
          ++ terminate g.closing)
        declaredNames := b.members.map Member.name })
    ∧ ∀ (b' : Bindings) (above ms ms' below : List Member) (e e' : Emitted), b'.Meets plain →
      b.members = above ++ ms ++ below → b'.members = above ++ ms' ++ below →
      emit p b = .ok e → emit p b' = .ok e' →
      ∃ top middle middle' bottom, g.placedMembers above = .ok top
        ∧ g.placedMembers ms = .ok middle ∧ g.placedMembers ms' = .ok middle'
        ∧ g.placedMembers below = .ok bottom
        ∧ e.source.toList = g.source (top ++ middle ++ bottom)
        ∧ e'.source.toList = g.source (top ++ middle' ++ bottom) := by
  refine ⟨?_, ?_⟩
  · rw [emit_eq_source hg hk hp hb, Generator.placedMembers]
    cases b.members.mapM (memberText g.elements) <;> rfl
  · intro b' above ms ms' below e e' hb' hm hm' he he'
    obtain ⟨top, middle, bottom, htop, hmiddle, hbottom, hsource⟩ := emit_split hg hk hp hb hm he
    obtain ⟨top', middle', bottom', htop', hmiddle', hbottom', hsource'⟩ :=
      emit_split hg hk hp hb' hm' he'
    obtain rfl := Except.ok.inj (htop.symm.trans htop')
    obtain rfl := Except.ok.inj (hbottom.symm.trans hbottom')
    exact ⟨top, middle, middle', bottom, htop, hmiddle, hmiddle', hbottom, hsource, hsource'⟩

/-- A library of two declarations inside a namespace. -/
def shapesGenerator : Generator where
  libraryName := "shapes"
  className := none
  namespaceName := some "Geometry"
  usings := ["System", "System.Runtime.InteropServices"]
  elements := primitiveElements

def areaFunction : Function where
  name := "area"
  nativeName := "shape_area"
  comment := "// shapes.h:3:5"
  convention := .c
  returnType := ⟨.text "int", "int", .int 4, .int 4, none⟩
  parameters := [⟨"shape", "", ⟨.text "Shape *", "Shape *", .int 8, .int 8, none⟩, true⟩]

def shapesBindings : Bindings where
  functions := [areaFunction]
  functionPointers := []
  structs := []
  opaqueStructs := [⟨"Shape", "// shapes.h:1:8"⟩]
  enumerations := []

theorem shapesGenerator_plain : shapesGenerator.All Plain where
  libraryName := by decide
  className s hs := absurd hs (by simp [shapesGenerator])
  namespaceName s hs := Option.some.inj hs ▸ by decide
  usings := by decide

theorem shapesGenerator_keywords : PlainKeywords shapesGenerator.elements :=
  (by decide : ∀ entry ∈ shapesGenerator.elements, Plain entry.2)

theorem shapesBindings_plain : shapesBindings.Meets plain where
  functions f hf := by
    rw [List.mem_singleton.mp hf]
    refine ⟨?_, ?_, ?_, trivial, ⟨⟨"int", rfl, ?_⟩, trivial, trivial, fun _ _ => trivial⟩, ?_⟩
    · exact (by decide : Plain "area")
    · exact (by decide : Plain "shape_area")
    · exact (by decide : Plain "// shapes.h:3:5")
    · exact (by decide : Plain "int")
    · intro p hp
      rw [List.mem_singleton.mp hp]
      exact ⟨(by decide : Plain "shape"), ⟨"Shape *", rfl, (by decide : Plain "Shape *")⟩, trivial,
        trivial, fun _ _ => trivial⟩
  functionPointers _ h := absurd h (by simp [shapesBindings])
  structs _ h := absurd h (by simp [shapesBindings])
  opaqueStructs s hs := by
    rw [List.mem_singleton.mp hs]
    exact ⟨(by decide : Plain "Shape"), (by decide : Plain "// shapes.h:1:8")⟩
  enumerations _ h := absurd h (by simp [shapesBindings])

/-- Without the function the file has the same lines above and below. -/
theorem emission_local_shapes :
    ∃ p e e' function rest, shapesGenerator.profile = .ok p
      ∧ emit p shapesBindings = .ok e ∧ e.declaredNames = ["area", "Shape"]
      ∧ emit p { shapesBindings with functions := [] } = .ok e'
      ∧ e.source.toList = shapesGenerator.source (function ++ rest)
      ∧ e'.source.toList = shapesGenerator.source rest := by
  obtain ⟨p, hp⟩ : ∃ p, shapesGenerator.profile = .ok p := ⟨_, rfl⟩
  have hempty : Bindings.Meets plain { shapesBindings with functions := [] } :=
    { shapesBindings_plain with functions := fun _ h => absurd h (by simp) }
  obtain ⟨heq, hsplit⟩ := emission_local shapesGenerator_plain shapesGenerator_keywords hp shapesBindings_plain
  obtain ⟨e, he, hnames⟩ : ∃ e, emit p shapesBindings = .ok e ∧ e.declaredNames = ["area", "Shape"] :=
    ⟨_, heq, rfl⟩
  obtain ⟨e', he'⟩ : ∃ e', emit p { shapesBindings with functions := [] } = .ok e' :=
    ⟨_, (emission_local shapesGenerator_plain shapesGenerator_keywords hp hempty).1⟩
  obtain ⟨top, middle, middle', bottom, htop, _, hmiddle', _, hsource, hsource'⟩ :=
    hsplit _ [] [.function areaFunction] [] [.opaqueStruct ⟨"Shape", "// shapes.h:1:8"⟩] e e' hempty
      rfl rfl he he'
  obtain rfl : [] = top := Except.ok.inj htop
  obtain rfl : [] = middle' := Except.ok.inj hmiddle'
  exact ⟨p, e, e', middle, bottom, hp, he, hnames, he', hsource, hsource'⟩

end Interop.Source
