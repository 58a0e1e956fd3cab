import Interop.Proofs.Source.Layout
import Interop.Proofs.Source.Locality
import Interop.Proofs.Source.Nesting

/-!
# Indentation equals nesting

Every declaration is written at depth zero, the members of a struct inside braces and one step to the
right.  The text of a member is a text of its own that was written in the same way, so its lines nest
(`Nested`), however deep the structs in it are.  The same holds of the class around the members and
of the namespace around the class, and tidying touches no line that holds something.

It takes plain strings, so that none opens a brace or moves a line, and names for the members of
enumerations, each of which begins a line (`named`).
-/

set_option autoImplicit false

namespace Interop.Source

open Binding Text

/-- Plain strings everywhere, and a name for every member of an enumeration. -/
def named : Demand := { plain with memberName := fun s => Plain s ∧ s ≠ "" }

theorem named_implies_plain : named.Implies plain where
  name _ h := h
  nativeName _ h := h
  typeName _ h := h
  comment _ h := h
  memberName _ h := h.1
  memberValue _ _ := trivial
  convention _ _ := trivial
  number _ _ := trivial

/-! ## Flat lines -/

/-- A character that neither breaks a line nor is a brace. -/
def Unbraced (c : Char) : Prop := isLineBreak c = false ∧ c ≠ '\x7b' ∧ c ≠ '\x7d'

instance : DecidablePred Unbraced := fun c =>
  inferInstanceAs (Decidable (isLineBreak c = false ∧ c ≠ '\x7b' ∧ c ≠ '\x7d'))

instance (t : List Char) : Decidable (Chars Unbraced t) := List.decidableBAll Unbraced t

theorem inked_unbraced : Inked Unbraced := by
  intro c hc
  refine ⟨inked_unbroken c hc, ?_, ?_⟩
  · rintro rfl
    exact absurd hc (by decide)
  · rintro rfl
    exact absurd hc (by decide)

variable {t : List Char}

theorem Chars.singleLine (h : Chars Unbraced t) : SingleLine t := fun c hc => (h c hc).1

theorem Chars.braceFree (h : Chars Unbraced t) : BraceFree t :=
  ⟨fun hc => (h _ hc).2.1 rfl, fun hc => (h _ hc).2.2 rfl⟩

theorem Plain.unbraced {s : String} (h : Plain s) : Chars Unbraced s.toList := by
  intro c hc
  refine ⟨h.1 c hc, ?_, ?_⟩
  · rintro rfl
    exact h.2.1 hc
  · rintro rfl
    exact h.2.2.1 hc

theorem named_implies_unbraced : named.Implies (charsIn Unbraced) where
  name _ h := h.unbraced
  nativeName _ h := h.unbraced
  typeName _ h := h.unbraced
  comment _ _ := trivial
  memberName _ h := h.1.unbraced
  memberValue _ _ := trivial
  convention _ _ := trivial
  number _ _ := trivial

/-- One line without braces that begins visibly. -/
structure Flat (t : List Char) : Prop where
  unbraced : Chars Unbraced t
  first : ∃ c rest, t = c :: rest ∧ isBlank c = false

theorem Flat.append {a b : List Char} (ha : Flat a) (hb : Chars Unbraced b) : Flat (a ++ b) := by
  obtain ⟨hchars, c, rest, rfl, hc⟩ := ha
  exact ⟨chars_append.mpr ⟨hchars, hb⟩, c, rest ++ b, rfl, hc⟩

/-- A flat line is in the first column, its end trimmed or not. -/
theorem Flat.aligned (h : Flat t) : Aligned 0 (trimLine t) 0 := by
  obtain ⟨hchars, c, rest, rfl, hc⟩ := h
  have hspace := isSpaceOrTab_eq_false hc
  obtain ⟨kept, hkept⟩ : ∃ kept, trimLine (c :: rest) = c :: kept := by
    rw [trimLine, dropWhileEnd_cons]
    split
    · exact ⟨[], by simp [hspace]⟩
    · exact ⟨_, rfl⟩
  have hfree : Chars Unbraced (c :: kept) := by
    rw [← hkept]
    exact hchars.mono fun x hx => mem_of_mem_dropWhileEnd hx
  rw [hkept]
  exact .flat 0 hc hfree.braceFree

theorem nests_flat {lines : List (List Char)} (h : ∀ line ∈ lines, line = [] ∨ Flat line) :
    Nests 0 (lines.map trimLine) 0 := by
  induction lines with
  | nil => exact .nil 0
  | cons line lines ih =>
    have hrest := ih fun l hl => h l (List.mem_cons_of_mem _ hl)
    rcases h line List.mem_cons_self with rfl | hline
    · exact hrest.empty
    · exact .cons hline.aligned hrest

/-! ## Texts whose lines nest -/

/-- A text whose lines nest, once their ends are trimmed. -/
structure Nested (t : List Char) : Prop where
  newlinesOnly : NewlinesOnly t
  nests : Nests 0 (trimmedLines t) 0

namespace Nested

theorem flat (h : Flat t) : Nested t where
  newlinesOnly := h.unbraced.singleLine.newlinesOnly
  nests := by
    rw [trimmedLines_singleLine h.unbraced.singleLine]
    exact .single h.aligned

theorem cons {line : List Char} (hl : Flat line) (ht : Nested t) : Nested (line ++ '\n' :: t) where
  newlinesOnly := newlinesOnly_append.mpr
    ⟨hl.unbraced.singleLine.newlinesOnly, newlinesOnly_newline.mpr ht.newlinesOnly⟩
  nests := by
    rw [trimmedLines_cons hl.unbraced.singleLine ht.newlinesOnly]
    exact .cons hl.aligned ht.nests

theorem withComment {comment : String} (hc : Plain comment) (ht : Nested t) :
    Nested (commentLine comment ++ t) := by
  rcases visibleComment_of_plain hc with rfl | ⟨_, hbegins⟩
  · exact ht
  · rw [commentLine_append hbegins]
    obtain ⟨c, rest, hcons, hblank, -⟩ := hbegins
    exact cons ⟨hc.unbraced, c, rest, hcons, hblank⟩ ht

end Nested

theorem nests_memberLines {texts : List (List Char)}
    (h : ∀ t ∈ texts, Nests 0 (trimmedLines t) 0) : Nests 0 (memberLines texts) 0 := by
  cases texts with
  | nil => exact .nil 0
  | cons t ts =>
    have hrest : Nests 0 (ts.flatMap fun x => [] :: trimmedLines x) 0 :=
      .flatMap fun x hx => (h x (List.mem_cons_of_mem _ hx)).empty
    exact (h t List.mem_cons_self).append hrest

/-- **Nesting in braces.**  Members whose lines nest are one step deeper inside the braces, and the
whole nests again. -/
theorem Nested.block {header : List Char} (hh : Flat header) {members : List (List Char)}
    (hm : ∀ t ∈ members, Standing t ∧ Nested t) :
    Nested (header ++ '\n' :: braced (joinMembers members)) := by
  obtain ⟨hlines, hbreaks⟩ := trimmedLines_header hh.unbraced.singleLine fun t ht => (hm t ht).1
  refine ⟨hbreaks, ?_⟩
  rw [hlines]
  have hmembers : Nests 1 ((memberLines members).map (shiftLine 4)) 1 :=
    (nests_memberLines fun t ht => (hm t ht).2.nests).shift
  exact .cons hh.aligned (.cons (.opening 0) (hmembers.append (.single (.closing 0))))

/-! ## Declarations -/

theorem functionText_nested {f : Function} (h : f.Meets named) :
    Ends (functionText f) Nested fun _ => True := by
  have hf := h.mono named_implies_unbraced
  obtain ⟨s, hs, hchars⟩ := hf.returnType.name
  rw [functionText_eq]
  refine (conventionName_chars inked_unbraced f.convention).bind fun convention hconvention => ?_
  refine (declaration_chars inked_unbraced hs hchars hf.name).bind fun signature hsignature => ?_
  refine (Ends.mapM fun p hp =>
    parameterText_chars inked_unbraced (hf.parameters p hp)).bind fun ps hps => Ends.ok ?_
  have hps : Chars Unbraced (joinWith [',', ' '] ps) :=
    Chars.joinWith (by decide) (forall_of_forall₂ hps fun _ _ h => h)
  have hentry : Flat (entryLine f.nativeName.toList convention.toList) := by
    refine ⟨?_, _, _, rfl, by decide⟩
    unfold entryLine
    simp only [chars_append]
    exact ⟨by decide, hf.nativeName, by decide, hconvention, by decide⟩
  have hextern : Flat (externLine signature (joinWith [',', ' '] ps)) := by
    refine ⟨?_, _, _, rfl, by decide⟩
    unfold externLine
    simp only [chars_append, chars_cons]
    exact ⟨by decide, hsignature, ⟨by decide, hps⟩, by decide⟩
  exact Nested.withComment h.comment (.cons hentry (.flat hextern))

variable {elements : ElementTable}

theorem fieldText_nested (hk : KeywordsIn Unbraced elements) {f : Field}
    (h : f.Meets (charsIn Unbraced)) : Ends (fieldText elements f) Nested fun _ => True := by
  rw [fieldText_eq_lines]
  refine ((fieldDeclaration_chars inked_unbraced hk h).failing fun _ _ => trivial).bind
    fun declared hdeclared => ?_
  refine (placement_chars inked_unbraced f.offset f.type.sizeOf f.padding).bind
    fun placement hplacement => Ends.ok ?_
  obtain ⟨hchars, rest, hfirst⟩ := hplacement
  have hline : Flat ("public ".toList ++ declared ++ [';']) := by
    refine ⟨?_, _, _, rfl, by decide⟩
    simp only [chars_append]
    exact ⟨⟨by decide, hdeclared⟩, by decide⟩
  exact .cons ⟨hchars, '[', rest, hfirst, by decide⟩ (.flat hline)

theorem structText_nested {name comment : String} (hn : Chars Unbraced name.toList)
    (hc : Plain comment) (type : TypeUse) {members : List (List Char)}
    (hm : ∀ t ∈ members, Standing t ∧ Nested t) :
    Ends (structText name comment type members) Nested fun _ => True := by
  rw [structText_eq]
  refine (numberText_chars inked_unbraced type.sizeOf).bind fun size hsize => ?_
  refine (numberText_chars inked_unbraced type.alignOf).bind fun pack hpack => Ends.ok ?_
  have hattribute : Flat (explicitLine size pack) := by
    refine ⟨?_, _, _, rfl, by decide⟩
    unfold explicitLine
    simp only [chars_append]
    exact ⟨⟨by decide, by decide⟩, hsize, by decide, hpack, by decide⟩
  have hheader : Flat ("public struct ".toList ++ name.toList) :=
    Flat.append ⟨by decide, _, _, rfl, by decide⟩ hn
  exact Nested.withComment hc (.cons hattribute (.block hheader hm))

theorem wrapperText_nested (hk : KeywordsIn Unbraced elements) {f : Field} (h : f.Meets named) :
    Ends (wrapperText elements f) Nested fun _ => True := by
  have hchars := h.mono named_implies_unbraced
  have hshown := (h.mono named_implies_plain).mono plain_implies_shown
  have hlines : SingleLineKeywords elements := fun entry he => (hk entry he).singleLine
  refine wrapperText_of_slots (fun t => Standing t ∧ Nested t) (fun size index => ?_)
    fun members hmembers => ?_
  · have hunbraced := slot_meets hchars.type (fun _ => trivial) (slotName_chars inked_unbraced)
      (by decide : Chars Unbraced "".toList) size index
    refine (hunbraced.also fun _ hslot => (slot_shown hshown.type size index).result hslot).bind
      fun field hfield => ?_
    exact (fieldText_nested hk hfield.2).also fun _ ht =>
      (fieldText_standing hlines hfield.1).result ht
  · exact structText_nested (wrapperName_chars inked_unbraced hchars) (by decide) f.type hmembers

theorem wrapperTexts_nested (hk : KeywordsIn Unbraced elements) {fields : List Field}
    (h : ∀ f ∈ fields, f.Meets named) :
    Ends (wrapperTexts elements fields) (fun ts => ∀ t ∈ ts, Nested t) fun _ => True :=
  wrapperTexts_of_each fun f hf => wrapperText_nested hk (h f hf)

/-- **The lines of a struct nest**, with structs nested in it at any depth. -/
theorem Struct.text_nested (hk : KeywordsIn Unbraced elements) {s : Struct} (h : s.Meets named) :
    Ends (Struct.text elements s) (fun t => Standing t ∧ Nested t) fun _ => True := by
  have hlines : SingleLineKeywords elements := fun entry he => (hk entry he).singleLine
  induction h with
  | mk hname hcomment _ hfields _ ih =>
    have hshown := fun f hf => ((hfields f hf).mono named_implies_plain).mono plain_implies_shown
    rw [Struct.text, nestedTexts_eq]
    refine (Ends.mapM fun f hf => (fieldText_nested hk
      ((hfields f hf).mono named_implies_unbraced)).also fun _ ht =>
        (fieldText_standing hlines (hshown f hf)).result ht).bind fun fs hfs => ?_
    refine ((wrapperTexts_nested hk hfields).also fun _ hts =>
      (wrapperTexts_standing hlines hshown).result hts).bind fun ws hws => ?_
    refine (Ends.mapM ih).bind fun ns hns => ?_
    have hmembers : ∀ t ∈ fs ++ ws ++ ns, Standing t ∧ Nested t := by
      intro t ht
      rcases List.mem_append.mp ht with ht | ht
      · rcases List.mem_append.mp ht with ht | ht
        · exact forall_of_forall₂ hfs (fun _ _ h => h) t ht
        · exact ⟨hws.1 t ht, hws.2 t ht⟩
      · exact forall_of_forall₂ hns (fun _ _ h => h) t ht
    exact (structText_nested hname.unbraced hcomment _ hmembers).also fun _ ht =>
      (structText_standing hname.1 (visibleComment_of_plain hcomment) _
        fun t ht => (hmembers t ht).1).result ht

theorem functionPointerText_nested (hk : KeywordsIn Unbraced elements) {p : FunctionPointer}
    (h : p.Meets named) : Ends (functionPointerText elements p) Nested fun _ => True := by
  have hlines : SingleLineKeywords elements := fun entry he => (hk entry he).singleLine
  have hfield : (pointerField p.type).Meets named :=
    ⟨(by decide : Plain "Pointer"), (by decide : Plain ""), h.type, trivial, trivial⟩
  have hshown := (hfield.mono named_implies_plain).mono plain_implies_shown
  refine ((fieldText_nested hk (hfield.mono named_implies_unbraced)).also fun _ ht =>
    (fieldText_standing hlines hshown).result ht).bind fun t ht => ?_
  exact structText_nested h.name.unbraced h.comment p.type (by simpa using ht)

theorem opaqueText_nested {s : OpaqueStruct} (h : s.Meets named) : Nested (opaqueText s) := by
  have hattribute : Flat "[StructLayout(LayoutKind.Sequential)]".toList :=
    ⟨by decide, _, _, rfl, by decide⟩
  have hheader : Flat ("public struct ".toList ++ s.name.toList) :=
    Flat.append ⟨by decide, _, _, rfl, by decide⟩ h.name.unbraced
  rw [opaqueText_eq]
  exact Nested.withComment h.comment (.cons hattribute (.block hheader (by simp)))

/-! ## Enumerations -/

theorem enumMemberLine_flat {m : EnumMember} (hn : Plain m.name ∧ m.name ≠ "") {value : List Char}
    (hv : m.value.text = .ok value) : Flat (enumMemberLine m.name value) := by
  have hvalue : Chars Unbraced value := (text_chars inked_unbraced m.value).result hv
  obtain ⟨hname, hne⟩ := hn
  have hfirst : Flat m.name.toList := by
    refine ⟨hname.unbraced, ?_⟩
    cases hs : m.name.toList with
    | nil => exact absurd (String.toList_eq_nil_iff.mp hs) hne
    | cons c rest =>
      have htrim := hname.2.2.2
      rw [hs] at htrim
      exact ⟨c, rest, rfl, isBlank_head htrim⟩
  unfold enumMemberLine
  refine hfirst.append ?_
  simp only [chars_append]
  exact ⟨by decide, hvalue, by decide⟩

theorem enumMemberText_flat {m : EnumMember} (hn : Plain m.name ∧ m.name ≠ "") :
    Ends (enumMemberText m) (fun t => ∃ line, Flat line ∧ t = shiftLine 4 line ++ ['\n'])
      fun _ => True := by
  refine enumMemberText_tells.mono ?_ fun _ _ => trivial
  rintro t ⟨value, hvalue, ht⟩
  exact ⟨_, enumMemberLine_flat hn hvalue, ht⟩

/-- The members of an enumeration are one step deeper as they are written. -/
theorem enumMembers_terminate {texts : List (List Char)}
    (h : ∀ t ∈ texts, ∃ line, Flat line ∧ t = shiftLine 4 line ++ ['\n']) :
    ∃ lines : List (List Char), (∀ line ∈ lines, Flat line)
      ∧ texts.flatten = terminate (lines.map (shiftLine 4)) := by
  induction texts with
  | nil => exact ⟨[], by simp, rfl⟩
  | cons t texts ih =>
    obtain ⟨line, hline, rfl⟩ := h t List.mem_cons_self
    obtain ⟨lines, hlines, htexts⟩ := ih fun t' ht' => h t' (List.mem_cons_of_mem _ ht')
    refine ⟨line :: lines, List.forall_mem_cons.mpr ⟨hline, hlines⟩, ?_⟩
    rw [List.flatten_cons, htexts]
    rfl

theorem enumText_nested {e : Enumeration} (h : e.Meets named) :
    Ends (enumText e) Nested fun _ => True := by
  obtain ⟨s, hs, hplain⟩ := h.integerType.name
  have htype : faulty e.integerType.name.shown = .ok s.toList := by
    rw [hs]
    rfl
  rw [enumText_eq, htype, ok_bind]
  refine (Ends.mapM fun m hm => enumMemberText_flat (h.members m hm).1).bind fun ms hms => Ends.ok ?_
  obtain ⟨lines, hlines, hflatten⟩ :=
    enumMembers_terminate (forall_of_forall₂ hms fun _ _ hline => hline)
  have hheader : Flat (enumerationMark ++ (e.name.toList ++ (" : ".toList ++ s.toList))) := by
    refine Flat.append ⟨by decide, _, _, rfl, by decide⟩ ?_
    simp only [chars_append]
    exact ⟨h.name.unbraced, by decide, Plain.unbraced hplain⟩
  have hshifted : ∀ line ∈ lines.map (shiftLine 4), SingleLine line := by
    intro line hl
    obtain ⟨l, hmem, rfl⟩ := List.mem_map.mp hl
    exact singleLine_shiftLine (hlines l hmem).unbraced.singleLine 4
  obtain ⟨hbody, hbreaks⟩ := trimmedLines_terminate hshifted (by decide : NewlinesOnly ['\x7d'])
  have hbelow : NewlinesOnly
      (['\x7b'] ++ '\n' :: (terminate (lines.map (shiftLine 4)) ++ ['\x7d'])) :=
    newlinesOnly_append.mpr ⟨by decide, newlinesOnly_newline.mpr hbreaks⟩
  have hmembers : Nests 1 ((lines.map (shiftLine 4)).map trimLine) 1 := by
    have htrim : (lines.map (shiftLine 4)).map trimLine = (lines.map trimLine).map (shiftLine 4) := by
      simp only [List.map_map, Function.comp_def, trimLine_shiftLine]
    rw [htrim]
    exact (nests_flat fun line hl => Or.inr (hlines line hl)).shift
  refine Nested.withComment h.comment ⟨?_, ?_⟩
  · rw [hflatten]
    exact newlinesOnly_append.mpr
      ⟨hheader.unbraced.singleLine.newlinesOnly, newlinesOnly_newline.mpr hbelow⟩
  · rw [hflatten, trimmedLines_cons hheader.unbraced.singleLine hbelow,
      trimmedLines_cons (by decide) hbreaks, hbody]
    exact .cons hheader.aligned (.cons (.opening 0) (hmembers.append (.single (.closing 0))))

/-! ## The whole file -/

theorem memberText_nested (hk : KeywordsIn Unbraced elements) {m : Member} (h : m.Meets named) :
    Ends (memberText elements m) Nested fun _ => True := by
  cases m with
  | function f => exact functionText_nested h
  | functionPointer p => exact functionPointerText_nested hk h
  | struct s => exact (Struct.text_nested hk h).mono (fun _ ht => ht.2) fun _ _ => trivial
  | opaqueStruct s => exact Ends.ok (opaqueText_nested h)
  | enumeration e => exact enumText_nested h

variable {g : Generator}

theorem nests_head (hg : g.All Plain) : Nests 0 (g.head.map trimLine) 0 := by
  refine nests_flat fun line hl => ?_
  simp only [Generator.head, List.mem_append, List.mem_map] at hl
  rcases hl with ((hl | hl) | ⟨s, hs, rfl⟩) | hl
  · unfold banner at hl
    simp only [List.mem_cons, List.not_mem_nil, or_false] at hl
    right
    rcases hl with rfl | rfl | rfl | rfl | rfl | rfl | rfl | rfl
    case inr.inr.inl =>
      have htitle : Flat "//     This code was generated by c2cs from the C declarations of ".toList :=
        ⟨by decide, _, _, rfl, by decide⟩
      exact (htitle.append hg.libraryName.unbraced).append (by decide)
    all_goals exact ⟨by decide, _, _, rfl, by decide⟩
  · simp only [List.mem_cons, List.not_mem_nil, or_false] at hl
    rcases hl with rfl | rfl | rfl | rfl
    · exact Or.inl rfl
    · exact Or.inr ⟨by decide, _, _, rfl, by decide⟩
    · exact Or.inr ⟨by decide, _, _, rfl, by decide⟩
    · exact Or.inl rfl
  · have husing : Flat "using ".toList := ⟨by decide, _, _, rfl, by decide⟩
    exact Or.inr ((husing.append (hg.usings s hs).unbraced).append (by decide))
  · exact Or.inl (List.mem_singleton.mp hl)

theorem nests_classLines (hg : g.All Plain) {members : List (List Char)} (h : Nests 0 members 0) :
    Nests 0 (g.classLines members) 0 := by
  have htitle : Flat g.classTitleLine :=
    Flat.append ⟨by decide, _, _, rfl, by decide⟩ hg.classTitle.unbraced
  -- The name of the library is written where it belongs, one step to the right.
  obtain ⟨line, hline, hshifted⟩ : ∃ line, Flat line
      ∧ g.libraryNameLine = List.replicate 4 ' ' ++ line := by
    refine ⟨"private const string LibraryName = \"".toList ++ (g.libraryName.toList ++ "\";".toList),
      ?_, ?_⟩
    · refine Flat.append ⟨by decide, _, _, rfl, by decide⟩ ?_
      exact chars_append.mpr ⟨hg.libraryName.unbraced, by decide⟩
    · unfold Generator.libraryNameLine
      rw [List.append_assoc]
      rfl
  have hlibrary : Aligned 1 (trimLine g.libraryNameLine) 1 := by
    rw [hshifted, trimLine_shift]
    exact hline.aligned.shift
  have hbody : Nests 1 ([] :: members.map (shiftLine 4) ++ [['\x7d']]) 0 :=
    h.shift.empty.append (.single (.closing 0))
  exact .cons htitle.aligned (.cons (.opening 0) (.cons hlibrary hbody))

theorem nests_lines (hg : g.All Plain) {members : List (List Char)} (h : Nests 0 members 0) :
    Nests 0 (g.lines members) 0 := by
  have hbody : Nests 0 (g.bodyLines members) 0 := by
    unfold Generator.bodyLines
    split
    · exact nests_classLines hg h
    · rename_i name htitle
      have hname : Flat ("namespace ".toList ++ name.toList) :=
        Flat.append ⟨by decide, _, _, rfl, by decide⟩ (hg.namespaceTitle htitle).unbraced
      exact .cons hname.aligned
        (.cons (.opening 0) ((nests_classLines hg h).shift.append (.single (.closing 0))))
  exact ((nests_head hg).append hbody).append (Nests.nil 0).empty

/-- The file begins with the rule above its comment. -/
theorem settle_lines_ne_nil (g : Generator) (members : List (List Char)) :
    settle none false (g.lines members) ≠ [] := by
  obtain ⟨line, rest, hlines, hline⟩ : ∃ line rest, g.lines members = trimLine line :: rest
      ∧ '/' ∈ line := ⟨_, _, rfl, by decide⟩
  rw [hlines, settle_cons _ _ (trimLine_ne_nil hline rfl)]
  simp

/-- **Indentation equals nesting.**  The braces of the file are balanced, and every line that holds
something begins visibly, four spaces to the right for each brace that is open above it; a line that
is a closing brace begins where what it closes does. -/
theorem indentation_is_nesting (hg : g.All Plain) (hk : PlainKeywords g.elements) {p : Profile}
    (hp : g.profile = .ok p) {b : Bindings} (hb : b.Meets named) {e : Emitted}
    (he : emit p b = .ok e) : Balanced e.source.toList ∧ Indented e.source.toList := by
  have hshown := (hb.mono named_implies_plain).mono plain_implies_shown
  have hkeywords : KeywordsIn Unbraced g.elements := fun entry hentry => (hk entry hentry).unbraced
  cases htexts : b.members.mapM (memberText g.elements) with
  | error fault => exact absurd ((emit_error hp htexts).symm.trans he) (by simp)
  | ok texts =>
    have hstanding := (memberTexts_standing (fun entry hentry => (hk entry hentry).1) hshown).result
      htexts
    have hnested : ∀ t ∈ texts, Nested t :=
      forall_of_forall₂ ((Ends.mapM fun m hm => memberText_nested hkeywords (hb.member hm)).result
        htexts) fun _ _ ht => ht
    obtain ⟨text, hemit, hlines⟩ := emit_lines (hg.mono fun _ h => h.1) hp htexts hstanding
    have hnests : Nests 0 (tidyLines text) 0 := by
      rw [tidyLines, hlines]
      exact (nests_lines hg (nests_memberLines fun t ht => (hnested t ht).nests)).settle none false
    have hsource : e.source.toList = terminate (tidyLines text) := by
      obtain rfl := Except.ok.inj (hemit.symm.trans he)
      rw [String.toList_ofList, tidy_eq, joinLines_newline]
      rw [tidyLines, hlines]
      exact settle_lines_ne_nil g (memberLines texts)
    rw [hsource]
    exact ⟨hnests.balanced, hnests.indented (newline_notMem_tidyLines text)⟩

/-- A struct with a wrapper and a nested struct, nested itself in another struct. -/
def outlineStruct : Struct where
  name := "Outline"
  comment := "// shapes.h:9:8"
  type := ⟨.text "Outline", "Outline", .int 8, .int 4, none⟩
  fields := [⟨"first", "first", "", ⟨.text "Segment", "Segment", .int 8, .int 4, none⟩, .int 0,
    .int 0, false⟩]
  nested := [segmentStruct]

def outlineBindings : Bindings := { segmentBindings with structs := [outlineStruct] }

theorem segmentStruct_named : segmentStruct.Meets named := by
  refine .mk (by decide : Plain "Segment") (by decide : Plain "// shapes.h:4:8") ?_ ?_ ?_
  · exact ⟨⟨"Segment", rfl, (by decide : Plain "Segment")⟩, trivial, trivial, fun _ _ => trivial⟩
  · intro f hf
    rw [List.mem_singleton.mp hf]
    exact ⟨(by decide : Plain "ends"), (by decide : Plain "ends"),
      ⟨⟨"Point", rfl, (by decide : Plain "Point")⟩, trivial, trivial, fun _ _ => trivial⟩, trivial,
      trivial⟩
  · intro s hs
    rw [List.mem_singleton.mp hs]
    exact .mk (by decide : Plain "Point") (by decide : Plain "")
      ⟨⟨"Point", rfl, (by decide : Plain "Point")⟩, trivial, trivial, fun _ _ => trivial⟩ (by simp)
      (by simp)

theorem outlineStruct_named : outlineStruct.Meets named := by
  refine .mk (by decide : Plain "Outline") (by decide : Plain "// shapes.h:9:8") ?_ ?_ ?_
  · exact ⟨⟨"Outline", rfl, (by decide : Plain "Outline")⟩, trivial, trivial, fun _ _ => trivial⟩
  · intro f hf
    rw [List.mem_singleton.mp hf]
    exact ⟨(by decide : Plain "first"), (by decide : Plain "first"),
      ⟨⟨"Segment", rfl, (by decide : Plain "Segment")⟩, trivial, trivial, fun _ _ => trivial⟩,
      trivial, trivial⟩
  · intro s hs
    rw [List.mem_singleton.mp hs]
    exact segmentStruct_named

theorem outlineBindings_named : outlineBindings.Meets named where
  functions _ h := absurd h (by simp [outlineBindings, segmentBindings])
  functionPointers _ h := absurd h (by simp [outlineBindings, segmentBindings])
  structs s hs := by
    rw [List.mem_singleton.mp hs]
    exact outlineStruct_named
  opaqueStructs _ h := absurd h (by simp [outlineBindings, segmentBindings])
  enumerations e he := by
    rw [List.mem_singleton.mp he]
    refine ⟨(by decide : Plain "Side"), (by decide : Plain ""), ⟨⟨"int", rfl,
      (by decide : Plain "int")⟩, trivial, trivial, fun _ _ => trivial⟩, ?_⟩
    intro m hm
    rw [List.mem_singleton.mp hm]
    exact ⟨⟨(by decide : Plain "LEFT"), by decide⟩, trivial⟩

/-- Three structs deep inside a class in a namespace, with a wrapper and an enumeration. -/
theorem indentation_is_nesting_outline :
    ∃ p e, shapesGenerator.profile = .ok p ∧ emit p outlineBindings = .ok e
      ∧ e.declaredNames = ["Outline", "Side"]
      ∧ Balanced e.source.toList ∧ Indented e.source.toList := by
  obtain ⟨p, hp⟩ : ∃ p, shapesGenerator.profile = .ok p := ⟨_, rfl⟩
  have hnames : (emit p outlineBindings).toOption.map (·.declaredNames) =
      some ["Outline", "Side"] := by
    obtain rfl := Except.ok.inj hp
    decide +kernel
  obtain ⟨e, he, hdeclared⟩ := Option.map_eq_some_iff.mp hnames
  have hemit := toOption_eq_some.mp he
  obtain ⟨hbalanced, hindented⟩ := indentation_is_nesting shapesGenerator_plain
    shapesGenerator_keywords hp outlineBindings_named hemit
  exact ⟨p, e, hp, hemit, hdeclared, hbalanced, hindented⟩

end Interop.Source
