import Interop.Proofs.Source.Characters
import Interop.Proofs.Source.Settle

/-!
# The texts of declarations stand by themselves

Every declaration, written by itself, begins with a visible character that closes no brace and ends
with one that opens none, and has no line breaks but newlines (`Standing`).  So its lines are a
block, nothing is stripped off it when members are put together, and no member is blank: the join of
members is their texts with one empty line between each two (`joinMembers_of_standing`).

What is asked of the strings is little (`shown`): no line breaks in any of them, and a comment that
begins visibly.
-/

set_option autoImplicit false

namespace Interop.Source

open Binding Text

/-- The first character is visible and closes no brace. -/
def Begins (t : List Char) : Prop := ∃ c rest, t = c :: rest ∧ isBlank c = false ∧ c ≠ '\x7d'

/-- The last character is visible and opens no brace. -/
def Finishes (t : List Char) : Prop := ∃ init c, t = init ++ [c] ∧ isBlank c = false ∧ c ≠ '\x7b'

theorem Begins.append {a : List Char} (h : Begins a) (b : List Char) : Begins (a ++ b) := by
  obtain ⟨c, rest, rfl, hc⟩ := h
  exact ⟨c, rest ++ b, rfl, hc⟩

theorem Finishes.append (a : List Char) {b : List Char} (h : Finishes b) : Finishes (a ++ b) := by
  obtain ⟨init, c, rfl, hc⟩ := h
  exact ⟨a ++ init, c, (List.append_assoc a init [c]).symm, hc⟩

/-! What declarations begin and end with. -/

theorem begins_bracket (rest : List Char) : Begins ('[' :: rest) :=
  ⟨'[', rest, rfl, by decide, by decide⟩

theorem begins_slash (rest : List Char) : Begins ('/' :: rest) :=
  ⟨'/', rest, rfl, by decide, by decide⟩

/-- For instance `public`. -/
theorem begins_p (rest : List Char) : Begins ('p' :: rest) := ⟨'p', rest, rfl, by decide, by decide⟩

theorem finishes_brace (init : List Char) : Finishes (init ++ ['\x7d']) :=
  ⟨init, '\x7d', rfl, by decide, by decide⟩

theorem finishes_semicolon (init : List Char) : Finishes (init ++ [';']) :=
  ⟨init, ';', rfl, by decide, by decide⟩

/-- A text that begins and ends visibly, and has no line breaks but newlines. -/
structure Standing (t : List Char) : Prop where
  newlinesOnly : NewlinesOnly t
  first : Begins t
  last : Finishes t

theorem ne_newline_of_isBlank {c : Char} (h : isBlank c = false) : c ≠ '\n' := by
  rintro rfl
  exact absurd h (by decide)

/-- A text that begins and ends visibly loses nothing at its ends. -/
theorem trimBy_eq_of_ends {t : List Char} (hb : Begins t) (hf : Finishes t) {p : Char → Bool}
    (hp : ∀ c, p c = true → isBlank c = true) : trimBy p t = t := by
  have hvisible (c : Char) (hc : isBlank c = false) : p c = false := by
    cases hpc : p c with
    | false => rfl
    | true => exact absurd (hp c hpc) (by simp [hc])
  obtain ⟨c, rest, hfirst, hc, _⟩ := hb
  obtain ⟨init, d, hlast, hd, _⟩ := hf
  exact trimBy_eq_self hfirst hlast (hvisible c hc) (hvisible d hd)

namespace Standing

variable {t : List Char}

theorem ne_nil (h : Standing t) : t ≠ [] := by
  obtain ⟨c, rest, rfl, _, _⟩ := h.first
  simp

theorem block (h : Standing t) : Block (trimmedLines t) := by
  rw [trimmedLines_eq h.newlinesOnly]
  constructor
  · obtain ⟨c, rest, rfl, hc, hbrace⟩ := h.first
    have hspace := isSpaceOrTab_eq_false hc
    rw [splitOn_cons, if_neg (ne_newline_of_isBlank hc)]
    cases hs : splitOn '\n' rest with
    | nil => exact absurd hs (splitOn_ne_nil _ rest)
    | cons line lines =>
      refine ⟨trimLine (c :: line), lines.map trimLine, rfl, ?_, ?_⟩
      · rw [trimLine, dropWhileEnd_cons]
        split <;> simp [hspace]
      · have hhead : (trimLine (c :: line)).head? = some c := by
          rw [trimLine, dropWhileEnd_cons]
          split <;> simp [hspace]
        cases hl : trimLine (c :: line) with
        | nil => rw [hl] at hhead; exact absurd hhead (by simp)
        | cons x xs =>
          rw [hl] at hhead
          obtain rfl : x = c := by simpa using hhead
          simp [closesBrace, hspace, hbrace]
  · obtain ⟨init, c, rfl, hc, hbrace⟩ := h.last
    have hspace := isSpaceOrTab_eq_false hc
    -- The last line is what follows the last newline, and `c` is at its end.
    obtain ⟨lines, line, hlines⟩ : ∃ lines line,
        splitOn '\n' (init ++ [c]) = lines ++ [line ++ [c]] := by
      clear h
      induction init with
      | nil => exact ⟨[], [], by simp [splitOn_cons, ne_newline_of_isBlank hc, splitOn]⟩
      | cons x init ih =>
        obtain ⟨lines, line, ih⟩ := ih
        rw [List.cons_append, splitOn_cons, ih]
        split
        · exact ⟨[] :: lines, line, rfl⟩
        · cases lines with
          | nil => exact ⟨[], x :: line, rfl⟩
          | cons l ls => exact ⟨(x :: l) :: ls, line, rfl⟩
    refine ⟨lines.map trimLine, line ++ [c], ?_, by simp, ?_⟩
    · rw [hlines, List.map_append, List.map_singleton, trimLine, dropWhileEnd_concat hspace]
    · simp [opensBrace, hbrace]

end Standing

/-! ## Members put together -/

/-- Members that begin and end visibly are put together as they are. -/
theorem joinMembers_of_ends {ts : List (List Char)} (h : ∀ t ∈ ts, Begins t ∧ Finishes t) :
    joinMembers ts = joinWith ['\n', '\n'] ts := by
  have htrim : ts.map (trimBy (· == '\n')) = ts := by
    refine (List.map_congr_left fun t ht => ?_).trans (List.map_id ts)
    refine trimBy_eq_of_ends (h t ht).1 (h t ht).2 fun c hc => ?_
    rw [beq_iff_eq.mp hc]
    rfl
  rw [joinMembers, htrim, List.filter_eq_self.mpr]
  intro t ht
  obtain ⟨hb, hf⟩ := h t ht
  have hne : trim t ≠ [] := by
    rw [trim, trimBy_eq_of_ends hb hf fun _ hc => hc]
    obtain ⟨c, rest, rfl, _⟩ := hb
    exact List.cons_ne_nil _ _
  simpa using hne

theorem joinMembers_of_standing {ts : List (List Char)} (h : ∀ t ∈ ts, Standing t) :
    joinMembers ts = joinWith ['\n', '\n'] ts :=
  joinMembers_of_ends fun t ht => ⟨(h t ht).first, (h t ht).last⟩

theorem trimmedLines_joinMembers {t : List Char} {ts : List (List Char)}
    (h : ∀ x ∈ t :: ts, Standing x) :
    trimmedLines (joinMembers (t :: ts)) =
        trimmedLines t ++ ts.flatMap (fun x => [] :: trimmedLines x)
      ∧ NewlinesOnly (joinMembers (t :: ts)) := by
  rw [joinMembers_of_standing h]
  induction ts generalizing t with
  | nil => exact ⟨by simp [joinWith], (h t List.mem_cons_self).newlinesOnly⟩
  | cons next ts ih =>
    have ht := (h t List.mem_cons_self).newlinesOnly
    obtain ⟨hlines, hbreaks⟩ := ih fun x hx => h x (List.mem_cons_of_mem _ hx)
    have hgap : NewlinesOnly ([] ++ '\n' :: joinWith ['\n', '\n'] (next :: ts)) := by
      simpa using hbreaks
    rw [joinWith_cons _ _ (by simp), List.append_assoc]
    show trimmedLines (t ++ '\n' :: ([] ++ '\n' :: joinWith ['\n', '\n'] (next :: ts))) = _ ∧ _
    refine ⟨?_, newlinesOnly_append.mpr ⟨ht, by simpa using hbreaks⟩⟩
    rw [trimmedLines_append ht hgap, trimmedLines_append NewlinesOnly.nil hbreaks, hlines]
    rfl

/-! ## What is asked of the strings -/

/-- A comment that may stand above a declaration: none, or one line that begins visibly and closes
no brace. -/
def VisibleComment (comment : String) : Prop :=
  comment = "" ∨ SingleLine comment.toList
    ∧ ∃ c rest, comment.toList = c :: rest ∧ isBlank c = false ∧ c ≠ '\x7d'

/-- No line breaks in anything that shows up in the text. -/
def shown : Demand where
  name s := SingleLine s.toList
  nativeName s := SingleLine s.toList
  typeName s := SingleLine s.toList
  comment := VisibleComment
  memberName s := SingleLine s.toList
  memberValue _ := True
  convention _ := True
  number _ := True

/-- No line breaks in the keywords of elements. -/
def SingleLineKeywords (elements : ElementTable) : Prop :=
  ∀ entry ∈ elements, SingleLine entry.2.toList

/-- A comment that begins visibly has a line of its own. -/
theorem commentLine_append {comment : String} (h : Begins comment.toList) (t : List Char) :
    commentLine comment ++ t = comment.toList ++ '\n' :: t := by
  have hne : comment.isEmpty = false := by
    rw [← Bool.not_eq_true, String.isEmpty_iff]
    rintro rfl
    obtain ⟨c, rest, hcons, _⟩ := h
    exact absurd hcons (by simp)
  rw [commentLine, hne]
  simp

theorem Standing.withComment {comment : String} {t : List Char} (hc : VisibleComment comment)
    (ht : Standing t) : Standing (commentLine comment ++ t) := by
  rcases hc with rfl | ⟨hline, hbegins⟩
  · exact ht
  · rw [commentLine_append hbegins]
    refine ⟨?_, Begins.append hbegins _, .append _ (.append ['\n'] ht.last)⟩
    exact newlinesOnly_append.mpr ⟨hline.newlinesOnly, newlinesOnly_newline.mpr ht.newlinesOnly⟩

/-! ## Parts of a line -/

/-- No line ends at a character that is written into a line. -/
theorem inked_unbroken : Inked fun c => isLineBreak c = false := by
  intro c hc
  simp only [isInk, Bool.and_eq_true, decide_eq_true_eq] at hc
  simp only [isLineBreak, Bool.or_eq_false_iff, Bool.and_eq_false_iff, decide_eq_false_iff_not,
    beq_eq_false_iff_ne]
  omega

theorem shown_implies_chars : shown.Implies (charsIn fun c => isLineBreak c = false) where
  name _ h := h
  nativeName _ h := h
  typeName _ h := h
  comment _ _ := trivial
  memberName _ h := h
  memberValue _ _ := trivial
  convention _ _ := trivial
  number _ _ := trivial

theorem isLineBreak_of_isNumeralChar {c : Char} (h : Number.isNumeralChar c = true) :
    isLineBreak c = false :=
  inked_unbroken.numeral h

theorem numberText_ends (n : Number) : Ends (numberText n) SingleLine fun _ => True :=
  numberText_chars inked_unbroken n

theorem declaration_ends {Q : EmissionError → Prop} {type : Value} {s name : String}
    (ht : type = .text s) (hs : SingleLine s.toList) (hn : SingleLine name.toList) :
    Ends (faulty (declaration type name)) SingleLine Q :=
  declaration_chars inked_unbroken ht hs hn

/-! ## Declarations -/

variable {elements : ElementTable}

theorem parameterText_ends {Q : EmissionError → Prop} {p : Parameter} (h : p.Meets shown) :
    Ends (parameterText p) SingleLine Q :=
  parameterText_chars inked_unbroken (h.mono shown_implies_chars)

theorem conventionName_ends (convention : Decl.CallingConvention) :
    Ends (conventionName convention) (fun s => SingleLine s.toList) fun _ => True :=
  conventionName_chars inked_unbroken convention

theorem functionText_standing {f : Function} (h : f.Meets shown) :
    Ends (functionText f) Standing fun _ => True := by
  obtain ⟨s, hs, hline⟩ := h.returnType.name
  refine (conventionName_ends f.convention).bind fun convention hconvention => ?_
  refine (declaration_ends hs hline h.name).bind fun signature hsignature => ?_
  refine (Ends.mapM fun p hp => (parameterText_ends (h.parameters p hp))).bind fun ps hps => ?_
  have hps : SingleLine (joinWith [',', ' '] ps) :=
    SingleLine.joinWith (by decide) (forall_of_forall₂ hps fun _ _ h => h)
  refine Ends.ok ?_
  simp only [List.append_assoc]
  refine Standing.withComment h.comment ⟨?_, begins_bracket _, ?_⟩
  · simp only [newlinesOnly_append]
    exact ⟨by decide, h.nativeName.newlinesOnly, by decide, hconvention.newlinesOnly, by decide,
      hsignature.newlinesOnly, NewlinesOnly.cons rfl hps.newlinesOnly, by decide⟩
  · repeat refine Finishes.append _ ?_
    exact finishes_semicolon [')']

/-! ## Structs -/

theorem newlinesOnly_braced {body : List Char} (h : NewlinesOnly body) :
    NewlinesOnly (braced body) := by
  rw [braced]
  split
  · exact newlinesOnly_append.mpr ⟨by decide, by decide⟩
  · simp only [newlinesOnly_append]
    exact ⟨⟨by decide, (trimmedLines_indent h).2, by decide⟩, by decide⟩

theorem newlinesOnly_joinMembers {ts : List (List Char)} (h : ∀ t ∈ ts, Standing t) :
    NewlinesOnly (joinMembers ts) := by
  rw [joinMembers_of_standing h]
  exact NewlinesOnly.joinWith (by decide) fun t ht => (h t ht).newlinesOnly

theorem structText_standing {name comment : String} (hn : SingleLine name.toList)
    (hc : VisibleComment comment) (type : TypeUse) {members : List (List Char)}
    (hm : ∀ t ∈ members, Standing t) :
    Ends (structText name comment type members) Standing fun _ => True := by
  refine (numberText_ends type.sizeOf).bind fun size hsize => ?_
  refine (numberText_ends type.alignOf).bind fun pack hpack => Ends.ok ?_
  simp only [List.append_assoc]
  refine Standing.withComment hc ⟨?_, begins_bracket _, ?_⟩
  · simp only [newlinesOnly_append, newlinesOnly_newline]
    exact ⟨by decide, hsize.newlinesOnly, by decide, hpack.newlinesOnly, by decide,
      hn.newlinesOnly, newlinesOnly_braced (newlinesOnly_joinMembers hm)⟩
  · repeat refine Finishes.append _ ?_
    exact Finishes.append ['\n'] (finishes_brace _)

theorem singleLine_wrapperName {f : Field} (h : f.Meets shown) :
    SingleLine (wrapperName f).toList :=
  wrapperName_chars inked_unbroken (h.mono shown_implies_chars)

theorem fieldDeclaration_ends (hk : SingleLineKeywords elements) {f : Field} (h : f.Meets shown) :
    Ends (fieldDeclaration elements f) SingleLine
      fun e => ∃ n, f.type.count = some n ∧ numberText n = .error e :=
  fieldDeclaration_chars inked_unbroken hk (h.mono shown_implies_chars)

theorem placement_ends (offset size padding : Number) :
    Ends (faulty ((offsetAttribute offset size padding).mapError .number))
      (fun t => SingleLine t ∧ Begins t) fun _ => True := by
  refine (placement_chars inked_unbroken offset size padding).mono ?_ fun _ _ => trivial
  rintro t ⟨hline, rest, rfl⟩
  exact ⟨hline, begins_bracket rest⟩

theorem fieldText_standing (hk : SingleLineKeywords elements) {f : Field} (h : f.Meets shown) :
    Ends (fieldText elements f) Standing fun _ => True := by
  refine ((fieldDeclaration_ends hk h).failing fun _ _ => trivial).bind
    fun declared hdeclared => ?_
  refine (placement_ends f.offset f.type.sizeOf f.padding).bind fun placement hplacement => ?_
  refine Ends.ok ⟨?_, ?_, finishes_semicolon _⟩
  · simp only [newlinesOnly_append]
    exact ⟨⟨⟨hplacement.1.newlinesOnly, by decide⟩, hdeclared.newlinesOnly⟩, by decide⟩
  · exact ((hplacement.2.append _).append _).append _

theorem singleLine_slotName (index : Nat) : SingleLine ("_" ++ Nat.repr index).toList :=
  slotName_chars inked_unbroken index

theorem slot_shown {t : TypeUse} (h : t.Meets shown) (size : Number) (index : Nat) :
    Ends (faulty (slot t size index)) (Field.Meets shown) fun _ => True :=
  slot_meets h (fun _ => trivial) singleLine_slotName (by decide : SingleLine "".toList) size index

/-- A wrapper is a struct around its slots, so it satisfies what such structs do. -/
theorem wrapperText_of_slots (P : List Char → Prop) {Q : List Char → Prop} {f : Field}
    (hslot : ∀ size index, Ends (faulty (slot f.type size index) >>= fieldText elements) P
      fun _ => True)
    (hstruct : ∀ members, (∀ t ∈ members, P t) →
      Ends (structText (wrapperName f) "" f.type members) Q fun _ => True) :
    Ends (wrapperText elements f) Q fun _ => True := by
  refine (Ends.any _).bind fun (count, size) _ => ?_
  refine (Ends.mapM fun index _ => hslot size index).bind fun members hmembers => ?_
  exact hstruct members (forall_of_forall₂ hmembers fun _ _ h => h)

/-- What holds of the wrapper of every field holds of all wrappers. -/
theorem wrapperTexts_of_each {P : List Char → Prop} {fields : List Field}
    (h : ∀ f ∈ fields, Ends (wrapperText elements f) P fun _ => True) :
    Ends (wrapperTexts elements fields) (fun ts => ∀ t ∈ ts, P t) fun _ => True := by
  induction fields with
  | nil => exact Ends.ok (by simp)
  | cons f rest ih =>
    have hrest := ih fun f' hf' => h f' (List.mem_cons_of_mem _ hf')
    rw [wrapperTexts]
    refine (Ends.any _).bind fun needed _ => ?_
    cases needed with
    | false => exact hrest
    | true =>
      refine (h f List.mem_cons_self).bind fun t ht => ?_
      exact hrest.bind fun ts hts => Ends.ok (List.forall_mem_cons.mpr ⟨ht, hts⟩)

theorem wrapperText_standing (hk : SingleLineKeywords elements) {f : Field} (h : f.Meets shown) :
    Ends (wrapperText elements f) Standing fun _ => True := by
  refine wrapperText_of_slots Standing (fun size index => ?_) fun members hmembers => ?_
  · exact (slot_shown h.type size index).bind fun field hfield => fieldText_standing hk hfield
  · exact structText_standing (singleLine_wrapperName h) (Or.inl rfl) f.type hmembers

theorem wrapperTexts_standing (hk : SingleLineKeywords elements) {fields : List Field}
    (h : ∀ f ∈ fields, f.Meets shown) :
    Ends (wrapperTexts elements fields) (fun ts => ∀ t ∈ ts, Standing t) fun _ => True :=
  wrapperTexts_of_each fun f hf => wrapperText_standing hk (h f hf)

theorem nestedTexts_eq (elements : ElementTable) (ss : List Struct) :
    nestedTexts elements ss = ss.mapM (Struct.text elements) := by
  induction ss with
  | nil => rfl
  | cons s ss ih => rw [nestedTexts, ih, List.mapM_cons]

/-- **A struct stands by itself**, with structs nested in it at any depth. -/
theorem Struct.text_standing (hk : SingleLineKeywords elements) {s : Struct} (h : s.Meets shown) :
    Ends (Struct.text elements s) Standing fun _ => True := by
  induction h with
  | mk hname hcomment _ hfields _ ih =>
    rw [Struct.text, nestedTexts_eq]
    refine (Ends.mapM fun f hf => fieldText_standing hk (hfields f hf)).bind fun fs hfs => ?_
    refine (wrapperTexts_standing hk hfields).bind fun ws hws => ?_
    refine (Ends.mapM ih).bind fun ns hns => ?_
    refine structText_standing hname hcomment _ fun t ht => ?_
    rcases List.mem_append.mp ht with ht | ht
    · rcases List.mem_append.mp ht with ht | ht
      · exact forall_of_forall₂ hfs (fun _ _ h => h) t ht
      · exact hws t ht
    · exact forall_of_forall₂ hns (fun _ _ h => h) t ht

/-! ## Other kinds -/

theorem functionPointerText_standing (hk : SingleLineKeywords elements) {p : FunctionPointer}
    (h : p.Meets shown) : Ends (functionPointerText elements p) Standing fun _ => True := by
  have hfield : (pointerField p.type).Meets shown :=
    ⟨(by decide : SingleLine "Pointer".toList), (by decide : SingleLine "".toList), h.type, trivial,
      trivial⟩
  refine (fieldText_standing hk hfield).bind fun t ht => ?_
  exact structText_standing h.name h.comment p.type (by simpa using ht)

theorem opaqueText_standing {s : OpaqueStruct} (h : s.Meets shown) : Standing (opaqueText s) := by
  simp only [opaqueText, List.append_assoc]
  refine Standing.withComment h.comment ⟨?_, begins_bracket _, ?_⟩
  · simp only [newlinesOnly_append, newlinesOnly_newline]
    exact ⟨by decide, h.name.newlinesOnly, newlinesOnly_braced NewlinesOnly.nil⟩
  · repeat refine Finishes.append _ ?_
    exact Finishes.append ['\n'] (finishes_brace _)

theorem enumMemberText_ends {m : EnumMember} (h : SingleLine m.name.toList) :
    Ends (enumMemberText m) NewlinesOnly fun _ => True := by
  refine (numberText_ends m.value).bind fun value hvalue => Ends.ok ?_
  simp only [newlinesOnly_append]
  exact ⟨⟨⟨⟨by decide, h.newlinesOnly⟩, by decide⟩, hvalue.newlinesOnly⟩, by decide⟩

theorem enumText_standing {e : Enumeration} (h : e.Meets shown) :
    Ends (enumText e) Standing fun _ => True := by
  obtain ⟨s, hs, hline⟩ := h.integerType.name
  have htype : faulty e.integerType.name.shown = .ok s.toList := by
    rw [hs]
    rfl
  rw [enumText, htype]
  refine (Ends.mapM fun m hm => enumMemberText_ends (h.members m hm).1).bind fun ms hms => ?_
  have hms : NewlinesOnly ms.flatten :=
    NewlinesOnly.flatten (forall_of_forall₂ hms fun _ _ h => h)
  refine Ends.ok ?_
  simp only [List.append_assoc]
  refine Standing.withComment h.comment ⟨?_, begins_p _, ?_⟩
  · simp only [newlinesOnly_append]
    exact ⟨by decide, h.name.newlinesOnly, by decide, hline.newlinesOnly, by decide, hms,
      by decide⟩
  · repeat refine Finishes.append _ ?_
    exact finishes_brace []

end Interop.Source
