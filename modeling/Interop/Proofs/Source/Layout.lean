import Interop.Proofs.Source.FileLines
import Interop.Proofs.Source.Reading

/-!
# The layout of a file reads back

The attributes in a generated file, read from top to bottom, are the recorded layout of the bindings
in the order of a traversal: a struct, its fields, the wrappers of its fields, the structs nested in
it.  Nothing is lost, merged or moved, at whatever depth it stands.  The members of enumerations read
back as well.

The layout has to be in integers.  Strings only need to be one line each, comments have to be
comments, and the members of enumerations need names (`integral`).
-/

set_option autoImplicit false

namespace Interop.Source

open Binding Text Number

/-! ## What is asked -/

/-- A character of a name: no blank, and no ASCII punctuation but the underscore and the escape
mark. -/
def isNameChar (c : Char) : Bool :=
  !isBlank c && (c.isAlphanum || c == '_' || c == '@' || 128 ≤ c.toNat)

/-- A name that is not empty. -/
def Identifier (s : String) : Prop := s ≠ "" ∧ ∀ c ∈ s.toList, isNameChar c = true

/-- No comment, or one line that is marked as one. -/
def LineComment (s : String) : Prop :=
  s = "" ∨ SingleLine s.toList ∧ ['/', '/'] <+: s.toList

/-- Layout in integers, and strings of one line. -/
def integral : Demand where
  name s := SingleLine s.toList
  nativeName s := SingleLine s.toList
  typeName s := SingleLine s.toList
  comment := LineComment
  memberName := Identifier
  memberValue _ := True
  convention _ := True
  number n := ∃ k, n = .int k

/-- Numbers that have a text, and calling conventions that have a name. -/
def writable : Demand where
  name _ := True
  nativeName _ := True
  typeName _ := True
  comment _ := True
  memberName _ := True
  memberValue n := ∀ k, n = .int k → Short k
  convention x := x = .c ∨ x = .unknown
  number n := ∀ k, n = .int k → Short k

theorem isBlank_of_isLineBreak {c : Char} (h : isLineBreak c = true) : isBlank c = true := by
  simp only [isLineBreak, Bool.or_eq_true, Bool.and_eq_true, decide_eq_true_eq, beq_iff_eq] at h
  simp only [isBlank, isWhiteSpace, Bool.or_eq_true, Bool.and_eq_true, decide_eq_true_eq, beq_iff_eq]
  omega

theorem isBlank_of_isNameChar {c : Char} (h : isNameChar c = true) : isBlank c = false := by
  simpa using (Bool.and_eq_true_iff.mp h).1

theorem isLineBreak_eq_false {c : Char} (h : isBlank c = false) : isLineBreak c = false := by
  cases hc : isLineBreak c with
  | false => rfl
  | true => exact absurd (isBlank_of_isLineBreak hc) (by simp [h])

theorem integral_implies_shown : integral.Implies shown where
  name _ h := h
  nativeName _ h := h
  typeName _ h := h
  comment s h := by
    rcases h with h | ⟨hline, rest, hrest⟩
    · exact Or.inl h
    · exact Or.inr ⟨hline, '/', '/' :: rest, hrest.symm, rfl, by decide⟩
  memberName _ h c hc := isLineBreak_eq_false (isBlank_of_isNameChar (h.2 c hc))
  memberValue _ _ := trivial
  convention _ _ := trivial
  number _ _ := trivial

/-! ## The traversal -/

section Traversal

variable (elements : ElementTable)

/-- Whether a field gets a wrapper. -/
def wraps (f : Field) : Bool :=
  match needsWrapper elements f with
  | .ok b => b
  | .error _ => false

/-- The number of elements of an array; none of what is no array. -/
def elementCount (t : TypeUse) : Int := (t.count.map integer).getD 0

/-- The size of one element: the size of the array divided and rounded down. -/
def elementSize (t : TypeUse) : Int := t.sizeOf.integer.fdiv (elementCount t)

def typeAttribute (t : TypeUse) : Attribute := .layout t.sizeOf.integer t.alignOf.integer

def fieldAttribute (f : Field) : Attribute :=
  .place f.offset.integer f.type.sizeOf.integer f.padding.integer

/-- The layout of the wrapper of an array: the array itself, and its elements one after the other. -/
def wrapperAttributes (t : TypeUse) : List Attribute :=
  typeAttribute t :: (List.range (elementCount t).toNat).map fun (index : Nat) =>
    .place (index * elementSize t) (elementSize t) 0

mutual

/-- The layout of a struct: the struct, its fields, the wrappers of its fields, and the structs
nested in it. -/
def structAttributes : Struct → List Attribute
  | ⟨_, _, type, fields, nested⟩ =>
    typeAttribute type
      :: (fields.map fieldAttribute
        ++ (fields.filter (wraps elements)).flatMap (fun f => wrapperAttributes f.type)
        ++ nestedAttributes nested)

def nestedAttributes : List Struct → List Attribute
  | [] => []
  | s :: rest => structAttributes s ++ nestedAttributes rest

end

def memberAttributes : Member → List Attribute
  | .function _ | .opaqueStruct _ | .enumeration _ => []
  | .functionPointer p => [typeAttribute p.type, .place 0 p.type.sizeOf.integer 0]
  | .struct s => structAttributes elements s

/-- The layout of all bindings, in the order of the file. -/
def layoutAttributes (b : Bindings) : List Attribute := b.members.flatMap (memberAttributes elements)

theorem nestedAttributes_eq (ss : List Struct) :
    nestedAttributes elements ss = ss.flatMap (structAttributes elements) := by
  induction ss with
  | nil => rfl
  | cons s ss ih => rw [nestedAttributes, ih, List.flatMap_cons]

end Traversal

def memberEnumerations : Member → List Enumeration
  | .enumeration e => [e]
  | _ => []

theorem flatMap_memberEnumerations (b : Bindings) :
    b.members.flatMap memberEnumerations = b.enumerations := by
  have hnone {α : Type} (xs : List α) : xs.flatMap (fun _ => ([] : List Enumeration)) = [] :=
    List.flatMap_eq_nil_iff.mpr fun _ _ => rfl
  simp [Bindings.members, List.flatMap_map, memberEnumerations, hnone]

/-- A member of an enumeration reads back: its name, and the text of its value. -/
def ReadsBack (m : EnumMember) (read : Option (String × List Char)) : Prop :=
  ∃ value, read = some (m.name, value) ∧ m.value.text = .ok value
    ∧ ∀ n, m.value = .int n → takeInteger value = some (n, [])

/-! ## Failure -/

/-- All numbers have no more digits than the limit. -/
def Attribute.Short : Attribute → Prop
  | .layout size pack => Number.Short size ∧ Number.Short pack
  | .place offset size padding =>
    Number.Short offset ∧ Number.Short size ∧ Number.Short padding

/-- A number with too many digits or a calling convention without a name.  If it is not among what
was recorded, it is in an attribute. -/
def Unwritable (recorded : Prop) (attributes : List Attribute) (e : EmissionError) : Prop :=
  (e = .fault (.number .tooManyDigitsToWrite) ∨ ∃ name, e = .unknownConvention name)
    ∧ (recorded → ∃ a ∈ attributes, ¬ a.Short)

theorem Unwritable.mono {recorded recorded' : Prop} {as as' : List Attribute} {e : EmissionError}
    (h : Unwritable recorded as e) (hr : recorded' → recorded) (ha : ∀ a ∈ as, a ∈ as') :
    Unwritable recorded' as' e :=
  ⟨h.1, fun h' => let ⟨a, hmem, hs⟩ := h.2 (hr h'); ⟨a, ha a hmem, hs⟩⟩

/-- The text of an integer, or a failure that one attribute is the reason of. -/
theorem integerText_ends (n : Int) :
    Ends (numberText (.int n)) (· = signedDigits n)
      (fun e => e = .fault (.number .tooManyDigitsToWrite) ∧ ¬ Number.Short n) := by
  refine ((intText_ends n).failing fun e h => ?_).mapError
  exact ⟨by rw [h.1], h.2⟩

/-! ## Functions -/

theorem tells_comment {comment : String} {t : List Char} (hc : LineComment comment)
    (ht : NewlinesOnly t) {as : List Attribute} {es : List (List (Option (String × List Char)))}
    (h : Tells (trimmedLines t) as es) : Tells (trimmedLines (commentLine comment ++ t)) as es := by
  rcases hc with rfl | ⟨hline, rest, hrest⟩
  · exact h
  · have hbegins : Begins comment.toList := by
      rw [← hrest]
      exact begins_slash _
    have hother : Other (unindent comment.toList) := by
      rw [← hrest]
      exact ⟨rfl, rfl, rfl⟩
    rw [commentLine_append hbegins, trimmedLines_cons hline ht]
    exact (Tells.other hother).append h

/-- A text of two lines that tell nothing. -/
theorem tells_twoLines {a b : List Char} (ha : SingleLine a) (hb : SingleLine b)
    (hoa : Other (unindent a)) (hob : Other (unindent b)) :
    Tells (trimmedLines (a ++ '\n' :: b)) [] [] := by
  rw [trimmedLines_cons ha hb.newlinesOnly, trimmedLines_singleLine hb]
  exact (Tells.other hoa).append (Tells.other hob)

/-- The line of a function that names its entry point. -/
def entryLine (nativeName convention : List Char) : List Char :=
  "[DllImport(LibraryName, EntryPoint = \"".toList ++ (nativeName
    ++ ("\", CallingConvention = CallingConvention.".toList ++ (convention ++ [')', ']'])))

/-- The line of a function that declares it. -/
def externLine (signature parameters : List Char) : List Char :=
  "public static extern ".toList ++ (signature ++ ('(' :: parameters ++ [')', ';']))

theorem functionText_eq (f : Function) : functionText f = (do
    let convention ← conventionName f.convention
    let signature ← faulty (declaration f.returnType.name f.name)
    let parameters ← f.parameters.mapM parameterText
    return commentLine f.comment ++ (entryLine f.nativeName.toList convention.toList
      ++ '\n' :: externLine signature (joinWith [',', ' '] parameters))) := by
  unfold functionText entryLine externLine
  simp only [List.append_assoc]
  rfl

theorem functionText_tells {f : Function} (h : f.Meets integral) :
    Ends (functionText f) (fun t => Tells (trimmedLines t) [] [])
      (Unwritable (f.Meets writable) []) := by
  have hf := h.mono integral_implies_shown
  obtain ⟨s, hs, hline⟩ := h.returnType.name
  rw [functionText_eq]
  have hconvention : Ends (conventionName f.convention) (fun s => SingleLine s.toList)
      (Unwritable (f.Meets writable) []) := by
    refine ⟨fun he => (conventionName_ends f.convention).result he, fun {e} he => ?_⟩
    cases hc : f.convention with
    | c => rw [hc] at he; exact absurd he (by simp [conventionName])
    | unknown => rw [hc] at he; exact absurd he (by simp [conventionName])
    | other name =>
      rw [hc] at he
      refine ⟨Or.inr ⟨name, (Except.error.inj he).symm⟩, fun hw => ?_⟩
      have hw := hw.convention
      rw [hc] at hw
      exact absurd hw (by simp [writable])
  refine hconvention.bind fun convention hconvention => ?_
  refine (declaration_ends hs hline h.name).bind fun signature hsignature => ?_
  refine (Ends.mapM fun p hp => parameterText_ends (hf.parameters p hp)).bind fun ps hps => ?_
  have hps : SingleLine (joinWith [',', ' '] ps) :=
    SingleLine.joinWith (by decide) (forall_of_forall₂ hps fun _ _ h => h)
  have hentry : SingleLine (entryLine f.nativeName.toList convention.toList) := by
    unfold entryLine
    simp only [singleLine_append]
    exact ⟨by decide, h.nativeName, by decide, hconvention, by decide⟩
  have hextern : SingleLine (externLine signature (joinWith [',', ' '] ps)) := by
    unfold externLine
    simp only [singleLine_append, singleLine_cons]
    exact ⟨by decide, hsignature, ⟨rfl, hps⟩, by decide⟩
  refine Ends.ok ?_
  refine tells_comment h.comment ?_ (tells_twoLines hentry hextern ⟨rfl, rfl, rfl⟩ ⟨rfl, rfl, rfl⟩)
  exact newlinesOnly_append.mpr ⟨hentry.newlinesOnly, newlinesOnly_newline.mpr hextern.newlinesOnly⟩

/-! ## Texts in braces -/

/-- Texts that can be members of a struct, and what they tell about layouts. -/
structure MembersTell (texts : List (List Char)) (as : List Attribute) : Prop where
  standing : ∀ t ∈ texts, Standing t
  tells : Tells (texts.flatMap trimmedLines) as []

namespace MembersTell

theorem nil : MembersTell [] [] := ⟨fun _ ht => absurd ht (by simp), Tells.nil⟩

theorem singleton {t : List Char} {as : List Attribute} (hstanding : Standing t)
    (htells : Tells (trimmedLines t) as []) : MembersTell [t] as where
  standing := by simpa using hstanding
  tells := by
    rw [List.flatMap_singleton]
    exact htells

theorem append {texts texts' : List (List Char)} {as as' : List Attribute}
    (h : MembersTell texts as) (h' : MembersTell texts' as') :
    MembersTell (texts ++ texts') (as ++ as') where
  standing t ht := (List.mem_append.mp ht).elim (h.standing t) (h'.standing t)
  tells := by
    rw [List.flatMap_append]
    exact h.tells.append h'.tells

theorem flatMap {α : Type} {xs : List α} {texts : List (List Char)} {a : α → List Attribute}
    (h : List.Forall₂ (fun x t => MembersTell [t] (a x)) xs texts) :
    MembersTell texts (xs.flatMap a) := by
  induction h with
  | nil => exact nil
  | cons hxt _ ih => exact hxt.append ih

end MembersTell

/-! ## Fields -/

theorem trimLine_layoutLine (size pack : Int) :
    trimLine (layoutLine size pack) = layoutLine size pack := by
  have hsplit : layoutLine size pack =
      layoutMark ++ ", Size = ".toList ++ signedDigits size ++ ", Pack = ".toList
        ++ signedDigits pack ++ [')'] ++ [']'] := by
    unfold layoutLine
    simp only [List.append_assoc]
    rfl
  rw [hsplit]
  exact dropWhileEnd_concat rfl

/-- The text of an integer ends in a digit. -/
theorem trimLine_signedDigits (a : List Char) (n : Int) :
    trimLine (a ++ signedDigits n) = a ++ signedDigits n := by
  obtain ⟨init, c, hc⟩ : ∃ init c, signedDigits n = init ++ [c] := by
    rcases List.eq_nil_or_concat (signedDigits n) with he | ⟨init, c, he⟩
    · rw [signedDigits] at he
      split at he
      · exact absurd he (by simp)
      · exact absurd he Nat.toDigits_ne_nil
    · exact ⟨init, c, by rw [he, List.concat_eq_append]⟩
  have hmem : isNumeralChar c = true := isNumeralChar_of_mem_signedDigits (by rw [hc]; simp)
  have hspace : isSpaceOrTab c = false := by
    cases hs : isSpaceOrTab c with
    | false => rfl
    | true =>
      simp only [isSpaceOrTab, Bool.or_eq_true, beq_iff_eq] at hs
      rcases hs with rfl | rfl <;> exact absurd hmem (by decide)
  rw [hc, ← List.append_assoc]
  exact dropWhileEnd_concat hspace

theorem trimLine_placeLine (offset size padding : Int) :
    trimLine (placeLine offset size padding) = placeLine offset size padding := by
  have hsplit : placeLine offset size padding =
      placeMark ++ signedDigits offset ++ ")] // size = ".toList ++ signedDigits size
        ++ ", padding = ".toList ++ signedDigits padding := by
    unfold placeLine
    simp only [List.append_assoc]
  rw [hsplit]
  exact trimLine_signedDigits _ padding

theorem singleLine_signedDigits (n : Int) : SingleLine (signedDigits n) := fun _ hc =>
  isLineBreak_of_isNumeralChar (isNumeralChar_of_mem_signedDigits hc)

theorem singleLine_layoutLine (size pack : Int) : SingleLine (layoutLine size pack) := by
  unfold layoutLine
  simp only [singleLine_append]
  exact ⟨⟨by decide, by decide⟩, singleLine_signedDigits size, by decide,
    singleLine_signedDigits pack, by decide⟩

theorem singleLine_placeLine (offset size padding : Int) :
    SingleLine (placeLine offset size padding) := by
  unfold placeLine
  simp only [singleLine_append]
  exact ⟨by decide, singleLine_signedDigits offset, by decide, singleLine_signedDigits size,
    by decide, singleLine_signedDigits padding⟩

variable {elements : ElementTable}

theorem placement_eq (offset size padding : Int) :
    Ends (faulty ((offsetAttribute (.int offset) (.int size) (.int padding)).mapError .number))
      (· = placeLine offset size padding)
      (fun e => e = .fault (.number .tooManyDigitsToWrite)
        ∧ ¬ (Attribute.place offset size padding).Short) := by
  have hnumber (n : Int) (hn : ¬ Number.Short n → ¬ (Attribute.place offset size padding).Short) :
      Ends (intText n) (· = signedDigits n)
        (fun e => e = .tooManyDigitsToWrite ∧ ¬ (Attribute.place offset size padding).Short) :=
    (intText_ends n).failing fun _ h => ⟨h.1, hn h.2⟩
  refine (((hnumber offset fun h hs => h hs.1).bind fun o ho => ?_).failing fun e h =>
    ?_).mapError.mapError
  · refine (hnumber size fun h hs => h hs.2.1).bind fun s hs => ?_
    refine (hnumber padding fun h hs => h hs.2.2).bind fun p hp => Ends.ok ?_
    rw [ho, hs, hp]
    unfold placeLine
    simp only [List.append_assoc]
    rfl
  · exact ⟨by rw [h.1], h.2⟩

theorem fieldText_eq_lines (elements : ElementTable) (f : Field) :
    fieldText elements f = (do
      let declared ← fieldDeclaration elements f
      let placement ←
        faulty ((offsetAttribute f.offset f.type.sizeOf f.padding).mapError .number)
      return placement ++ '\n' :: ("public ".toList ++ declared ++ [';'])) := by
  unfold fieldText
  simp only [List.append_assoc]
  rfl

theorem trimLine_fieldLine (declared : List Char) :
    trimLine ("public ".toList ++ declared ++ [';']) = "public ".toList ++ declared ++ [';'] :=
  dropWhileEnd_concat rfl

theorem fieldText_tells (hk : SingleLineKeywords elements) {f : Field} (h : f.Meets integral) :
    Ends (fieldText elements f) (fun t => Tells (trimmedLines t) [fieldAttribute f] [])
      (Unwritable (∀ n, f.type.count = some (.int n) → Number.Short n) [fieldAttribute f]) := by
  obtain ⟨offset, hoffset⟩ := h.offset
  obtain ⟨size, hsize⟩ := h.type.sizeOf
  obtain ⟨padding, hpadding⟩ := h.padding
  have hattribute : fieldAttribute f = .place offset size padding := by
    rw [fieldAttribute, hoffset, hsize, hpadding]
    rfl
  rw [hattribute, fieldText_eq_lines, hoffset, hsize, hpadding]
  have hcount : ∀ e, (∃ n, f.type.count = some n ∧ numberText n = .error e) →
      Unwritable (∀ n, f.type.count = some (.int n) → Number.Short n)
        [.place offset size padding] e := by
    rintro e ⟨n, hn, he⟩
    obtain ⟨k, rfl⟩ := h.type.count n hn
    obtain ⟨rfl, hlong⟩ := (integerText_ends k).failure he
    exact ⟨Or.inl rfl, fun hs => absurd (hs k hn) hlong⟩
  refine ((fieldDeclaration_ends hk (h.mono integral_implies_shown)).failing
    hcount).bind fun declared hdeclared => ?_
  refine ((placement_eq offset size padding).failing fun e he =>
    ⟨Or.inl he.1, fun _ => ⟨_, List.mem_singleton_self _, he.2⟩⟩).bind fun placement hplacement => ?_
  have hline : SingleLine ("public ".toList ++ declared ++ [';']) := by
    simp only [singleLine_append]
    exact ⟨⟨by decide, hdeclared⟩, by decide⟩
  refine Ends.ok ?_
  rw [hplacement, trimmedLines_cons (singleLine_placeLine _ _ _) hline.newlinesOnly,
    trimmedLines_singleLine hline, trimLine_placeLine, trimLine_fieldLine]
  have hpublic : unindent ("public ".toList ++ declared ++ [';']) =
      "public ".toList ++ declared ++ [';'] := rfl
  refine tells_placeLine offset size padding ?_ rfl
  rw [hpublic]
  exact List.cons_ne_nil _ _

theorem fieldText_member (hk : SingleLineKeywords elements) {f : Field} (h : f.Meets integral) :
    Ends (fieldText elements f) (fun t => MembersTell [t] [fieldAttribute f])
      (Unwritable (∀ n, f.type.count = some (.int n) → Number.Short n) [fieldAttribute f]) := by
  have hstanding := fieldText_standing hk (h.mono integral_implies_shown)
  exact ((fieldText_tells hk h).also fun _ ht => hstanding.result ht).giving
    fun _ ht => .singleton ht.1 ht.2

/-! ## Structs -/

theorem visible_memberLines (texts : List (List Char)) :
    visible (memberLines texts) = visible (texts.flatMap trimmedLines) := by
  cases texts with
  | nil => rfl
  | cons t ts =>
    have htail : visible (ts.flatMap fun x => [] :: trimmedLines x) =
        visible (ts.flatMap trimmedLines) := by
      induction ts with
      | nil => rfl
      | cons x ts ih =>
        rw [List.flatMap_cons, List.flatMap_cons, visible_append, visible_append, ih, visible_blank]
    rw [memberLines, List.flatMap_cons, visible_append, visible_append, htail]

theorem tells_memberLines {texts : List (List Char)} {as : List Attribute}
    {es : List (List (Option (String × List Char)))} (h : Tells (texts.flatMap trimmedLines) as es) :
    Tells (memberLines texts) as es := by
  constructor
  · rw [visible_memberLines]
    exact h.attributes
  · rw [visible_memberLines]
    exact h.enumerations

/-- The lines of a header and of members in braces below it. -/
theorem trimmedLines_header {header : List Char} (hh : SingleLine header)
    {members : List (List Char)} (hm : ∀ t ∈ members, Standing t) :
    trimmedLines (header ++ '\n' :: braced (joinMembers members)) =
        trimLine header :: ['\x7b'] :: ((memberLines members).map (shiftLine 4) ++ [['\x7d']])
      ∧ NewlinesOnly (header ++ '\n' :: braced (joinMembers members)) := by
  obtain ⟨hbody, hbreaks⟩ := trimmedLines_body hm
  have hbrace : SingleLine ['\x7b'] := by decide
  have hbraced : braced (joinMembers members) = ['\x7b'] ++ '\n' ::
      ((if (joinMembers members).isEmpty then [] else indent (joinMembers members) ++ ['\n'])
        ++ ['\x7d']) := rfl
  have hbelow : NewlinesOnly (braced (joinMembers members)) := by
    rw [hbraced]
    exact newlinesOnly_append.mpr ⟨hbrace.newlinesOnly, newlinesOnly_newline.mpr hbreaks⟩
  refine ⟨?_, newlinesOnly_append.mpr ⟨hh.newlinesOnly, newlinesOnly_newline.mpr hbelow⟩⟩
  rw [trimmedLines_cons hh hbelow, hbraced, trimmedLines_cons hbrace hbreaks, hbody]
  rfl

/-- The line of a struct that states its layout, numbers given as texts. -/
def explicitLine (size pack : List Char) : List Char :=
  layoutMark ++ ", Size = ".toList ++ (size ++ (", Pack = ".toList ++ (pack ++ [')', ']'])))

theorem structText_eq (name comment : String) (type : TypeUse) (members : List (List Char)) :
    structText name comment type members = (do
      let size ← numberText type.sizeOf
      let pack ← numberText type.alignOf
      return commentLine comment ++ (explicitLine size pack
        ++ '\n' :: ("public struct ".toList ++ name.toList ++ '\n' :: braced (joinMembers members)))) := by
  have hstart : "[StructLayout(LayoutKind.Explicit, Size = ".toList =
      layoutMark ++ ", Size = ".toList := rfl
  have hend : ")]\npublic struct ".toList = [')', ']'] ++ '\n' :: "public struct ".toList := rfl
  unfold structText explicitLine
  rw [hstart, hend]
  simp only [List.append_assoc, List.cons_append]

/-- A struct tells its own layout and what its members tell. -/
theorem structText_tells {name comment : String} (hn : SingleLine name.toList)
    (hc : LineComment comment) {type : TypeUse} (ht : type.Meets integral)
    {members : List (List Char)} {as : List Attribute} (hm : MembersTell members as) :
    Ends (structText name comment type members)
      (fun t => Tells (trimmedLines t) (typeAttribute type :: as) [])
      (Unwritable True [typeAttribute type]) := by
  obtain ⟨size, hsize⟩ := ht.sizeOf
  obtain ⟨pack, hpack⟩ := ht.alignOf
  have hattribute : typeAttribute type = .layout size pack := by
    rw [typeAttribute, hsize, hpack]
    rfl
  have hnumber (n : Int) (hn : ¬ Number.Short n → ¬ (Attribute.layout size pack).Short) :
      Ends (numberText (.int n)) (· = signedDigits n) (Unwritable True [.layout size pack]) :=
    (integerText_ends n).failing fun e h =>
      ⟨Or.inl h.1, fun _ => ⟨_, List.mem_singleton_self _, hn h.2⟩⟩
  rw [hattribute, structText_eq, hsize, hpack]
  refine (hnumber size fun h hs => h hs.1).bind fun s hs => ?_
  refine (hnumber pack fun h hs => h hs.2).bind fun p hp => Ends.ok ?_
  have hheader : SingleLine ("public struct ".toList ++ name.toList) :=
    singleLine_append.mpr ⟨by decide, hn⟩
  obtain ⟨hlines, hbreaks⟩ := trimmedLines_header hheader hm.standing
  have hlayout := singleLine_layoutLine size pack
  rw [hs, hp]
  refine tells_comment hc (newlinesOnly_append.mpr ⟨hlayout.newlinesOnly,
    newlinesOnly_newline.mpr hbreaks⟩) ?_
  rw [trimmedLines_cons hlayout hbreaks, trimLine_layoutLine, hlines]
  have hopen : Tells [trimLine ("public struct ".toList ++ name.toList), trimLine ['\x7b']] [] [] :=
    (Tells.other ⟨rfl, rfl, rfl⟩).append (Tells.other (by decide))
  have hclose : Tells [trimLine ['\x7d']] [] [] := Tells.other (by decide)
  have hinner := ((tells_memberLines hm.tells).shift 4).append hclose
  rw [List.append_nil] at hinner
  exact (tells_layoutLine size pack).append (hopen.append hinner)

/-! ## Wrappers -/

/-- The layout of an array in integers; a count that is not positive gives no elements. -/
theorem elementLayout_int {t : TypeUse} {count size : Int} (hcount : t.count = some (.int count))
    (hsize : t.sizeOf = .int size) :
    elementLayout t = .ok (count.toNat, .int (size.fdiv count)) := by
  rw [elementLayout, hcount, hsize]
  by_cases hzero : count = 0
  · subst hzero
    exact congrArg (fun n => Except.ok (0, Number.int n)) (Int.fdiv_zero size).symm
  · have hcounted : (Number.int count).isZero = false := by simpa [Number.isZero] using hzero
    simp only [hcounted, Bool.false_eq_true, if_false]
    rfl

theorem elementLayout_eq {t : TypeUse} (h : t.Meets integral) :
    elementLayout t = .ok ((elementCount t).toNat, .int (elementSize t)) := by
  obtain ⟨size, hsize⟩ := h.sizeOf
  cases hcount : t.count with
  | none =>
    rw [elementLayout, elementSize, elementCount, hcount, hsize]
    exact congrArg (fun n => Except.ok (0, Number.int n)) (Int.fdiv_zero size).symm
  | some n =>
    obtain ⟨k, rfl⟩ := h.count n hcount
    rw [elementLayout_int hcount hsize, elementSize, elementCount, hcount, hsize]
    rfl

/-- The field of a wrapper for one element has the layout of that element. -/
theorem slot_integral {t : TypeUse} (h : t.Meets integral) (size : Int) (index : Nat) :
    ∃ f, slot t (.int size) index = .ok f ∧ f.Meets integral ∧ f.type.count = none
      ∧ fieldAttribute f = .place (index * size) size 0 := by
  refine ⟨_, rfl, ⟨singleLine_slotName index, (by decide : SingleLine "".toList), ?_, ⟨_, rfl⟩,
    ⟨0, rfl⟩⟩, rfl, rfl⟩
  exact ⟨h.name, ⟨size, rfl⟩, h.alignOf, fun _ hn => absurd hn (by simp)⟩

theorem wrapperText_tells (hk : SingleLineKeywords elements) {f : Field} (h : f.Meets integral) :
    Ends (wrapperText elements f) (fun t => Tells (trimmedLines t) (wrapperAttributes f.type) [])
      (Unwritable True (wrapperAttributes f.type)) := by
  have hshown := h.mono integral_implies_shown
  rw [wrapperText, elementLayout_eq h.type]
  have hslot : ∀ index ∈ List.range (elementCount f.type).toNat,
      Ends (do fieldText elements (← faulty (slot f.type (.int (elementSize f.type)) index)))
        (fun t => MembersTell [t] [.place (index * elementSize f.type) (elementSize f.type) 0])
        (Unwritable True (wrapperAttributes f.type)) := by
    intro index hi
    obtain ⟨field, hfield, hmeets, hcount, hattribute⟩ :=
      slot_integral h.type (elementSize f.type) index
    rw [hfield]
    have hmember := fieldText_member hk hmeets
    rw [hattribute] at hmember
    refine hmember.failing fun e he => he.mono (fun _ n hn => ?_) fun a ha => ?_
    · rw [hcount] at hn
      exact absurd hn (by simp)
    · rw [List.mem_singleton.mp ha]
      exact List.mem_cons_of_mem _ (List.mem_map_of_mem hi)
  refine (Ends.mapM hslot).bind fun members hmembers => ?_
  have hslots := MembersTell.flatMap hmembers
  rw [← List.map_eq_flatMap] at hslots
  refine (structText_tells (singleLine_wrapperName hshown) (Or.inl rfl) h.type hslots).failing
    fun e he => he.mono (fun h => h) fun a ha => ?_
  rw [List.mem_singleton.mp ha]
  exact List.mem_cons_self

theorem needsWrapper_eq {f : Field} (h : f.Meets integral) :
    needsWrapper elements f = .ok (wraps elements f) := by
  obtain ⟨s, hs, _⟩ := h.type.name
  obtain ⟨needed, hneeded⟩ := needsWrapper_ok elements hs
  rw [wraps, hneeded]

theorem wrapperTexts_tells (hk : SingleLineKeywords elements) {fields : List Field}
    (h : ∀ f ∈ fields, f.Meets integral) :
    Ends (wrapperTexts elements fields)
      (fun ts => Tells (ts.flatMap trimmedLines)
        ((fields.filter (wraps elements)).flatMap fun f => wrapperAttributes f.type) [])
      (Unwritable True ((fields.filter (wraps elements)).flatMap fun f => wrapperAttributes f.type)) := by
  induction fields with
  | nil => exact Ends.ok Tells.nil
  | cons f rest ih =>
    have hf := h f List.mem_cons_self
    have hrest := ih fun f' hf' => h f' (List.mem_cons_of_mem _ hf')
    rw [wrapperTexts, needsWrapper_eq hf]
    cases hw : wraps elements f with
    | false =>
      rw [List.filter_cons_of_neg (by simp [hw])]
      exact hrest
    | true =>
      rw [List.filter_cons_of_pos hw, List.flatMap_cons]
      refine ((wrapperText_tells hk hf).failing fun e he =>
        he.mono id fun a ha => List.mem_append_left _ ha).bind fun t ht => ?_
      refine (hrest.failing fun e he =>
        he.mono id fun a ha => List.mem_append_right _ ha).bind fun ts hts => Ends.ok ?_
      exact ht.append hts

theorem wrapperTexts_members (hk : SingleLineKeywords elements) {fields : List Field}
    (h : ∀ f ∈ fields, f.Meets integral) :
    Ends (wrapperTexts elements fields)
      (fun ts => MembersTell ts
        ((fields.filter (wraps elements)).flatMap fun f => wrapperAttributes f.type))
      (Unwritable True
        ((fields.filter (wraps elements)).flatMap fun f => wrapperAttributes f.type)) := by
  have hstanding := wrapperTexts_standing hk fun f hf => (h f hf).mono integral_implies_shown
  exact ((wrapperTexts_tells hk h).also fun _ hts => hstanding.result hts).giving
    fun _ hts => ⟨hts.1, hts.2⟩

/-! ## Members -/

/-- **The layout of a struct reads back**, with structs nested in it at any depth. -/
theorem Struct.text_tells (hk : SingleLineKeywords elements) {s : Struct} (h : s.Meets integral) :
    Ends (Struct.text elements s)
      (fun t => Tells (trimmedLines t) (structAttributes elements s) [])
      (Unwritable (s.Meets writable) (structAttributes elements s)) := by
  induction h with
  | @mk name comment type fields nested hname hcomment htype hfields hnested ih =>
    rw [Struct.text, nestedTexts_eq]
    generalize hs : Struct.mk name comment type fields nested = s
    have has : structAttributes elements s = typeAttribute type
        :: (fields.map fieldAttribute
          ++ (fields.filter (wraps elements)).flatMap (fun f => wrapperAttributes f.type)
          ++ nested.flatMap (structAttributes elements)) := by
      rw [← hs, structAttributes, nestedAttributes_eq]
    -- A number too long for a member is in the attributes of the whole struct as well, so every error
    -- of a member is restated as one of the struct.
    have hfieldText : ∀ f ∈ fields, Ends (fieldText elements f)
        (fun t => MembersTell [t] [fieldAttribute f])
        (Unwritable (s.Meets writable) (structAttributes elements s)) := by
      intro f hf
      refine (fieldText_member hk (hfields f hf)).failing
        fun e he => he.mono (fun hw n hn => ?_) fun a ha => ?_
      · subst hs
        exact (hw.fields f hf).type.count _ hn n rfl
      · rw [has, List.mem_singleton.mp ha]
        simp only [List.mem_cons, List.mem_append, List.mem_map]
        exact Or.inr (Or.inl (Or.inl ⟨f, hf, rfl⟩))
    have hnestedText : ∀ n ∈ nested, Ends (Struct.text elements n)
        (fun t => MembersTell [t] (structAttributes elements n))
        (Unwritable (s.Meets writable) (structAttributes elements s)) := by
      intro n hn
      have hstanding := Struct.text_standing hk ((hnested n hn).mono integral_implies_shown)
      refine ((ih n hn).also fun t ht => hstanding.result ht).mono
        (fun t ht => .singleton ht.1 ht.2) fun e he => he.mono (fun hw => ?_) fun a ha => ?_
      · subst hs
        exact hw.nested n hn
      · rw [has]
        simp only [List.mem_cons, List.mem_append, List.mem_flatMap]
        exact Or.inr (Or.inr ⟨n, hn, ha⟩)
    refine (Ends.mapM hfieldText).bind fun fs hfs => ?_
    refine ((wrapperTexts_members hk hfields).failing fun e he =>
      he.mono (fun _ => trivial) fun a ha => ?_).bind fun ws hws => ?_
    · rw [has]
      exact List.mem_cons_of_mem _ (List.mem_append_left _ (List.mem_append_right _ ha))
    refine (Ends.mapM hnestedText).bind fun ns hns => ?_
    have hmembers : MembersTell (fs ++ ws ++ ns)
        (fields.map fieldAttribute
          ++ (fields.filter (wraps elements)).flatMap (fun f => wrapperAttributes f.type)
          ++ nested.flatMap (structAttributes elements)) := by
      rw [List.map_eq_flatMap]
      exact ((MembersTell.flatMap hfs).append hws).append (MembersTell.flatMap hns)
    rw [has]
    refine (structText_tells hname hcomment htype hmembers).failing
      fun e he => he.mono (fun _ => trivial) fun a ha => ?_
    rw [List.mem_singleton.mp ha]
    exact List.mem_cons_self

theorem functionPointerText_tells (hk : SingleLineKeywords elements) {p : FunctionPointer}
    (h : p.Meets integral) :
    Ends (functionPointerText elements p)
      (fun t => Tells (trimmedLines t) [typeAttribute p.type, .place 0 p.type.sizeOf.integer 0] [])
      (Unwritable (p.Meets writable) [typeAttribute p.type, .place 0 p.type.sizeOf.integer 0]) := by
  have hfield : (pointerField p.type).Meets integral :=
    ⟨(by decide : SingleLine "Pointer".toList), (by decide : SingleLine "".toList), h.type, ⟨0, rfl⟩,
      ⟨0, rfl⟩⟩
  refine ((fieldText_member hk hfield).failing fun e he =>
    he.mono (fun hw n hn => hw.type.count _ hn n rfl)
      fun a ha => List.mem_cons_of_mem _ ha).bind fun t ht => ?_
  refine (structText_tells h.name h.comment h.type ht).failing
    fun e he => he.mono (fun _ => trivial) fun a ha => ?_
  rw [List.mem_singleton.mp ha]
  exact List.mem_cons_self

theorem opaqueText_eq (s : OpaqueStruct) :
    opaqueText s = commentLine s.comment ++ ("[StructLayout(LayoutKind.Sequential)]".toList
      ++ '\n' :: ("public struct ".toList ++ s.name.toList ++ '\n' :: braced (joinMembers []))) := by
  have hstart : "[StructLayout(LayoutKind.Sequential)]\npublic struct ".toList =
      "[StructLayout(LayoutKind.Sequential)]".toList ++ '\n' :: "public struct ".toList := rfl
  unfold opaqueText
  rw [hstart]
  simp only [List.append_assoc, List.cons_append]
  rfl

theorem opaqueText_tells {s : OpaqueStruct} (h : s.Meets integral) :
    Tells (trimmedLines (opaqueText s)) [] [] := by
  have hheader : SingleLine ("public struct ".toList ++ s.name.toList) :=
    singleLine_append.mpr ⟨by decide, h.name⟩
  have hnone : ∀ t ∈ ([] : List (List Char)), Standing t := fun _ ht => absurd ht (by simp)
  obtain ⟨hlines, hbreaks⟩ := trimmedLines_header hheader hnone
  have hattribute : SingleLine "[StructLayout(LayoutKind.Sequential)]".toList := by decide
  rw [opaqueText_eq]
  refine tells_comment h.comment (newlinesOnly_append.mpr ⟨hattribute.newlinesOnly,
    newlinesOnly_newline.mpr hbreaks⟩) ?_
  rw [trimmedLines_cons hattribute hbreaks, hlines]
  have hclose : Tells [trimLine ['\x7b'], trimLine ['\x7d']] [] [] :=
    (Tells.other (by decide)).append (Tells.other (by decide))
  have hinner : Tells (trimLine ("public struct ".toList ++ s.name.toList)
      :: [trimLine ['\x7b'], trimLine ['\x7d']]) [] [] :=
    (Tells.other ⟨rfl, rfl, rfl⟩).append hclose
  exact (Tells.other (by decide)).append hinner

/-! ## Enumerations -/

/-- The line of a member of an enumeration. -/
def enumMemberLine (name : String) (value : List Char) : List Char :=
  name.toList ++ ([' ', '=', ' '] ++ (value ++ [',']))

theorem enumMemberText_tells {m : EnumMember} :
    Ends (enumMemberText m)
      (fun t => ∃ value, m.value.text = .ok value
        ∧ t = shiftLine 4 (enumMemberLine m.name value) ++ ['\n'])
      (Unwritable (∀ n, m.value = .int n → Number.Short n) []) := by
  have hnumber : Ends (numberText m.value) (fun t => m.value.text = .ok t)
      (Unwritable (∀ n, m.value = .int n → Number.Short n) []) := by
    refine ⟨fun ht => mapError_eq_ok.mp ht, fun {e} he => ?_⟩
    cases hvalue : m.value with
    | double x =>
      rw [hvalue] at he
      exact absurd he (by simp [numberText, Number.text, Except.mapError])
    | int n =>
      rw [hvalue] at he
      obtain ⟨rfl, hlong⟩ := (integerText_ends n).failure he
      exact ⟨Or.inl rfl, fun hs => absurd (hs n rfl) hlong⟩
  refine hnumber.bind fun value hvalue => Ends.ok ⟨value, hvalue, ?_⟩
  rw [shiftLine_of_ne_nil (by simp [enumMemberLine]), enumMemberLine]
  simp only [List.append_assoc]
  rfl

theorem Identifier.space_notMem {name : String} (h : Identifier name) : ' ' ∉ name.toList :=
  fun hs => absurd (h.2 _ hs) (by decide)

theorem enumMemberLine_other {name : String} (h : Identifier name) (value : List Char) :
    Other (enumMemberLine name value) ∧ enumMemberLine name value ≠ []
      ∧ enumMemberLine name value ≠ ['\x7d']
      ∧ unindent (enumMemberLine name value) = enumMemberLine name value := by
  obtain ⟨c, rest, hname⟩ : ∃ c rest, name.toList = c :: rest := by
    cases hn : name.toList with
    | nil => exact absurd (String.toList_eq_nil_iff.mp hn) h.1
    | cons c rest => exact ⟨c, rest, rfl⟩
  have hc : isNameChar c = true := h.2 c (by simp [hname])
  have hne (x : Char) (hx : isNameChar x = false) : x ≠ c := by
    rintro rfl
    rw [hc] at hx
    exact absurd hx (by simp)
  have hhead : (enumMemberLine name value).head? = some c := by
    rw [enumMemberLine, hname]
    rfl
  refine ⟨⟨?_, ?_, ?_⟩, ?_, ?_, ?_⟩
  · exact isPrefixOf_of_head_ne (rfl : layoutMark.head? = some '[') hhead (hne '[' (by decide))
  · exact isPrefixOf_of_head_ne (rfl : placeMark.head? = some '[') hhead (hne '[' (by decide))
  · -- Below the first space there is an equals sign, and not the name of the enumeration.
    rw [← Bool.not_eq_true, List.isPrefixOf_iff_prefix]
    rintro ⟨tail, htail⟩
    have hspace : ∀ x ∈ name.toList, (x != ' ') = true := by
      intro x hx
      simpa using fun he : x = ' ' => h.space_notMem (he ▸ hx)
    have hsecond : (((enumerationMark ++ tail).dropWhile (· != ' ')).drop 1).head? = some 'e' := rfl
    rw [htail, enumMemberLine, List.dropWhile_append_of_pos hspace] at hsecond
    exact absurd (show some '=' = some 'e' from hsecond) (by decide)
  · intro he
    rw [he] at hhead
    exact absurd hhead (by simp)
  · intro he
    rw [he] at hhead
    exact hne '\x7d' (by decide) (Option.some.inj hhead)
  · rw [enumMemberLine, hname, List.cons_append, unindent,
      List.dropWhile_cons_of_neg (by simp [isBlank_of_isNameChar hc])]

theorem trimLine_ne_nil {t : List Char} {c : Char} (hc : c ∈ t) (h : isSpaceOrTab c = false) :
    trimLine t ≠ [] := by
  induction t with
  | nil => exact absurd hc (by simp)
  | cons x t ih =>
    rw [trimLine, dropWhileEnd_cons]
    rcases List.mem_cons.mp hc with rfl | hc
    · split <;> simp [h]
    · have ht : dropWhileEnd isSpaceOrTab t ≠ [] := ih hc
      rw [if_neg ht]
      simp

theorem singleLine_enumMemberLine {m : EnumMember} (h : Identifier m.name) {value : List Char}
    (hv : m.value.text = .ok value) : SingleLine (enumMemberLine m.name value) := by
  rw [enumMemberLine, singleLine_append, singleLine_append, singleLine_append]
  exact ⟨fun c hc => isLineBreak_eq_false (isBlank_of_isNameChar (h.2 c hc)), by decide,
    (text_chars inked_unbroken m.value).result hv, by decide⟩

theorem trimLine_enumMemberLine (name : String) (value : List Char) :
    trimLine (enumMemberLine name value) = enumMemberLine name value := by
  have hsplit : enumMemberLine name value = name.toList ++ [' ', '=', ' '] ++ value ++ [','] := by
    rw [enumMemberLine]
    simp only [List.append_assoc]
  rw [hsplit]
  exact dropWhileEnd_concat rfl

/-- The line of a member reads back. -/
theorem readEnumMember_enumMemberLine {m : EnumMember} (h : Identifier m.name) {value : List Char}
    (hv : m.value.text = .ok value) :
    ReadsBack m (readEnumMember (enumMemberLine m.name value)) := by
  refine ⟨value, readEnumMember_eq value h.space_notMem, hv, fun n hn => ?_⟩
  rw [hn] at hv
  have hread := takeInteger_signedDigits n (rfl : NoDigit [])
  rwa [List.append_nil, ← (intText_ends n).result hv] at hread

/-- The lines of the members of an enumeration, and what is read from them. -/
theorem enumMemberLines {ms : List EnumMember} {texts : List (List Char)}
    (hn : ∀ m ∈ ms, Identifier m.name)
    (h : List.Forall₂ (fun m t => ∃ value, m.value.text = .ok value
      ∧ t = shiftLine 4 (enumMemberLine m.name value) ++ ['\n']) ms texts) :
    ∃ lines : List (List Char), texts.flatten = terminate (lines.map (shiftLine 4))
      ∧ (∀ line ∈ lines, SingleLine line ∧ trimLine line = line)
      ∧ (∀ line ∈ lines, Other line ∧ line ≠ [] ∧ line ≠ ['\x7d'] ∧ unindent line = line)
      ∧ List.Forall₂ ReadsBack ms (lines.map readEnumMember) := by
  induction h with
  | nil => exact ⟨[], rfl, by simp, by simp, .nil⟩
  | @cons m t ms texts hmt _ ih =>
    obtain ⟨value, hvalue, rfl⟩ := hmt
    obtain ⟨lines, hlines, hsingle, hother, hread⟩ := ih fun m' hm' => hn m' (List.mem_cons_of_mem _ hm')
    have hname := hn m List.mem_cons_self
    refine ⟨enumMemberLine m.name value :: lines, ?_, ?_, ?_, ?_⟩
    · rw [List.flatten_cons, hlines]
      rfl
    · exact List.forall_mem_cons.mpr
        ⟨⟨singleLine_enumMemberLine hname hvalue, trimLine_enumMemberLine m.name value⟩, hsingle⟩
    · exact List.forall_mem_cons.mpr ⟨enumMemberLine_other hname value, hother⟩
    · exact .cons (readEnumMember_enumMemberLine hname hvalue) hread

theorem singleLine_shiftLine {line : List Char} (h : SingleLine line) (columns : Nat) :
    SingleLine (shiftLine columns line) := by
  rw [shiftLine]
  split
  · exact fun _ hc => absurd hc (by simp)
  · refine singleLine_append.mpr ⟨fun c hc => ?_, h⟩
    rw [List.eq_of_mem_replicate hc]
    rfl

theorem enumText_eq (e : Enumeration) : enumText e = (do
    let type ← faulty e.integerType.name.shown
    let members ← e.members.mapM enumMemberText
    return commentLine e.comment ++ (enumerationMark ++ (e.name.toList ++ (" : ".toList ++ type))
      ++ '\n' :: (['\x7b'] ++ '\n' :: (members.flatten ++ ['\x7d'])))) := by
  have hopen : "\n\x7b\n".toList = '\n' :: (['\x7b'] ++ ['\n']) := rfl
  have hmark : "public enum ".toList = enumerationMark := rfl
  unfold enumText
  rw [hopen, hmark]
  simp only [List.append_assoc, List.cons_append, List.nil_append]

theorem enumText_tells {e : Enumeration} (h : e.Meets integral) :
    Ends (enumText e)
      (fun t => ∃ read, Tells (trimmedLines t) [] [read] ∧ List.Forall₂ ReadsBack e.members read)
      (Unwritable (e.Meets writable) []) := by
  obtain ⟨s, hs, hline⟩ := h.integerType.name
  have htype : faulty e.integerType.name.shown = .ok s.toList := by
    rw [hs]
    rfl
  have hmember : ∀ m ∈ e.members, Ends (enumMemberText m)
      (fun t => ∃ value, m.value.text = .ok value
        ∧ t = shiftLine 4 (enumMemberLine m.name value) ++ ['\n'])
      (Unwritable (e.Meets writable) []) := fun m hm =>
    enumMemberText_tells.failing fun _ he =>
      he.mono (fun hw n hn => (hw.members m hm).2 n hn) fun _ ha => ha
  rw [enumText_eq, htype, ok_bind]
  refine (Ends.mapM hmember).bind fun ms hms => ?_
  obtain ⟨lines, hlines, hsingle, hother, hread⟩ :=
    enumMemberLines (fun m hm => (h.members m hm).1) hms
  have hname : SingleLine (enumerationMark ++ (e.name.toList ++ (" : ".toList ++ s.toList))) := by
    simp only [singleLine_append]
    exact ⟨by decide, h.name, by decide, hline⟩
  have hbrace : SingleLine ['\x7b'] := by decide
  -- The end of the line is trimmed, but the mark is not at its end.
  have hheader : trimLine (enumerationMark ++ (e.name.toList ++ (" : ".toList ++ s.toList))) =
      enumerationMark ++ trimLine (e.name.toList ++ (" : ".toList ++ s.toList)) := by
    have hcolon : ':' ∈ e.name.toList ++ (" : ".toList ++ s.toList) :=
      List.mem_append_right _ (List.mem_append_left _ (by decide))
    have hne : dropWhileEnd isSpaceOrTab (e.name.toList ++ (" : ".toList ++ s.toList)) ≠ [] :=
      trimLine_ne_nil hcolon rfl
    rw [trimLine, dropWhileEnd_append, if_neg hne]
    rfl
  have htrimmed : (lines.map (shiftLine 4)).map trimLine = lines.map (shiftLine 4) := by
    rw [List.map_map]
    refine List.map_congr_left fun line hl => ?_
    rw [Function.comp, trimLine_shiftLine, (hsingle line hl).2]
  have hshifted : ∀ line ∈ lines.map (shiftLine 4), SingleLine line := by
    intro line hl
    obtain ⟨l, hmem, rfl⟩ := List.mem_map.mp hl
    exact singleLine_shiftLine (hsingle l hmem).1 4
  have hend : NewlinesOnly ['\x7d'] := by decide
  obtain ⟨hmembers, hbreaks⟩ := trimmedLines_terminate hshifted hend
  have hbelow := newlinesOnly_append.mpr ⟨hbrace.newlinesOnly, newlinesOnly_newline.mpr hbreaks⟩
  refine Ends.ok ⟨lines.map readEnumMember, ?_, hread⟩
  rw [hlines]
  refine tells_comment h.comment (newlinesOnly_append.mpr ⟨hname.newlinesOnly,
    newlinesOnly_newline.mpr hbelow⟩) ?_
  rw [trimmedLines_cons hname hbelow, trimmedLines_cons hbrace hbreaks, hmembers, htrimmed, hheader]
  exact tells_enumeration hother

/-! ## The whole file -/

/-- What the text of a member tells: its layout, and its members if it is an enumeration. -/
theorem memberText_tells (hk : SingleLineKeywords elements) {m : Member} (h : m.Meets integral) :
    Ends (memberText elements m)
      (fun t => ∃ read, Tells (trimmedLines t) (memberAttributes elements m) read
        ∧ List.Forall₂ (fun e r => List.Forall₂ ReadsBack e.members r) (memberEnumerations m) read)
      (Unwritable (m.Meets writable) (memberAttributes elements m)) := by
  cases m with
  | function f =>
    exact (functionText_tells h).mono (fun t ht => ⟨[], ht, .nil⟩) fun _ he => he
  | functionPointer p =>
    exact (functionPointerText_tells hk h).mono (fun t ht => ⟨[], ht, .nil⟩) fun _ he => he
  | struct s => exact (Struct.text_tells hk h).mono (fun t ht => ⟨[], ht, .nil⟩) fun _ he => he
  | opaqueStruct s => exact Ends.ok ⟨[], opaqueText_tells h, .nil⟩
  | enumeration e =>
    exact (enumText_tells h).mono (fun t ⟨read, ht, hr⟩ => ⟨[read], ht, .cons hr .nil⟩) fun _ he => he

variable {g : Generator}

theorem head_other (g : Generator) : ∀ line ∈ g.head, Other (unindent line) := by
  intro line hl
  simp only [Generator.head, List.mem_append, List.mem_map] at hl
  rcases hl with ((hl | hl) | ⟨s, _, rfl⟩) | hl
  · unfold banner at hl
    simp only [List.mem_cons, List.not_mem_nil, or_false] at hl
    rcases hl with rfl | rfl | rfl | rfl | rfl | rfl | rfl | rfl <;> exact ⟨rfl, rfl, rfl⟩
  · simp only [List.mem_cons, List.not_mem_nil, or_false] at hl
    rcases hl with rfl | rfl | rfl | rfl <;> exact ⟨rfl, rfl, rfl⟩
  · exact ⟨rfl, rfl, rfl⟩
  · rw [List.mem_singleton.mp hl]
    exact ⟨rfl, rfl, rfl⟩

theorem classHead_other (g : Generator) : ∀ line ∈ g.classHead, Other (unindent line) := by
  intro line hl
  simp only [Generator.classHead, List.mem_cons, List.not_mem_nil, or_false] at hl
  rcases hl with rfl | rfl | rfl <;> exact ⟨rfl, rfl, rfl⟩

theorem namespaceHead_other (name : String) :
    ∀ line ∈ Generator.namespaceHead name, Other (unindent line) := by
  intro line hl
  simp only [Generator.namespaceHead, List.mem_cons, List.not_mem_nil, or_false] at hl
  rcases hl with rfl | rfl <;> exact ⟨rfl, rfl, rfl⟩

/-- The lines around the members tell nothing. -/
theorem tells_lines {members : List (List Char)} {as : List Attribute}
    {es : List (List (Option (String × List Char)))} (h : Tells members as es) :
    Tells (g.lines members) as es := by
  have hclose : Tells [trimLine ['\x7d']] [] [] := Tells.other (by decide)
  have hclass : Tells (g.classLines members) as es := by
    have hinner := (Tells.others (classHead_other g)).append ((h.shift 4).blank)
    have hall := hinner.append hclose
    simp only [List.nil_append, List.append_nil] at hall
    exact hall
  have hbody : Tells (g.bodyLines members) as es := by
    unfold Generator.bodyLines
    cases g.namespaceTitle with
    | none => exact hclass
    | some name =>
      have hall := ((Tells.others (namespaceHead_other name)).append (hclass.shift 4)).append hclose
      simp only [List.nil_append, List.append_nil] at hall
      exact hall
  have hall := ((Tells.others (head_other g)).append hbody).append (Tells.blank Tells.nil)
  simp only [List.nil_append, List.append_nil] at hall
  exact hall

/-- What the texts of members tell, one below the other. -/
theorem tells_members {ms : List Member} {texts : List (List Char)}
    (h : List.Forall₂ (fun m t => ∃ read, Tells (trimmedLines t) (memberAttributes elements m) read
      ∧ List.Forall₂ (fun e r => List.Forall₂ ReadsBack e.members r) (memberEnumerations m) read)
      ms texts) :
    ∃ read, Tells (texts.flatMap trimmedLines) (ms.flatMap (memberAttributes elements)) read
      ∧ List.Forall₂ (fun e r => List.Forall₂ ReadsBack e.members r)
        (ms.flatMap memberEnumerations) read := by
  induction h with
  | nil => exact ⟨[], Tells.nil, .nil⟩
  | cons hmt _ ih =>
    obtain ⟨read, htells, hread⟩ := hmt
    obtain ⟨reads, htellsAll, hreads⟩ := ih
    exact ⟨read ++ reads, htells.append htellsAll, List.rel_append hread hreads⟩

theorem members_tell (hk : SingleLineKeywords elements) {b : Bindings} (hb : b.Meets integral) :
    Ends (b.members.mapM (memberText elements))
      (fun texts => ∃ read, Tells (texts.flatMap trimmedLines) (layoutAttributes elements b) read
        ∧ List.Forall₂ (fun e r => List.Forall₂ ReadsBack e.members r) b.enumerations read)
      (Unwritable (b.Meets writable) (layoutAttributes elements b)) := by
  refine (Ends.mapM fun m hm => (memberText_tells hk (hb.member hm)).failing fun e he =>
    he.mono (fun hw => hw.member hm) fun a ha => List.mem_flatMap.mpr ⟨m, hm, ha⟩).mono
      (fun texts htexts => ?_) fun _ he => he
  rw [← flatMap_memberEnumerations]
  exact tells_members htexts

/-- **The layout reads back from the file.**  A reader of the file finds the attributes of the
traversal, all of them well formed and no others, and the members of all enumerations.  There is a
file whenever all numbers that were recorded and all that are in the attributes have no more digits
than can be written, and only calling conventions with a name occur; nothing else can fail. -/
theorem layout_reads_back (hg : g.All fun s => SingleLine s.toList)
    (hk : SingleLineKeywords g.elements) {p : Profile} (hp : g.profile = .ok p) {b : Bindings}
    (hb : b.Meets integral) :
    (∀ e, emit p b = .ok e →
      attributesOf e.source.toList = (layoutAttributes g.elements b).map some
      ∧ List.Forall₂ (fun e r => List.Forall₂ ReadsBack e.members r) b.enumerations
          (enumerationsOf e.source.toList))
    ∧ (b.Meets writable → (∀ a ∈ layoutAttributes g.elements b, a.Short) → ∃ e, emit p b = .ok e)
    ∧ ∀ e, emit p b = .error e →
      e = .fault (.number .tooManyDigitsToWrite) ∨ ∃ name, e = .unknownConvention name := by
  have hshown := hb.mono integral_implies_shown
  have hmembers := members_tell hk hb
  cases htexts : b.members.mapM (memberText g.elements) with
  | error e =>
    have herror := emit_error hp htexts
    obtain ⟨he, hlong⟩ := hmembers.failure htexts
    refine ⟨fun e' he' => ?_, fun hw hshort => ?_, fun e' he' => ?_⟩
    · exact absurd (herror.symm.trans he') (by simp)
    · obtain ⟨a, ha, hn⟩ := hlong hw
      exact absurd (hshort a ha) hn
    · obtain rfl := Except.error.inj (herror.symm.trans he')
      exact he
  | ok texts =>
    have hstanding := (memberTexts_standing hk hshown).result htexts
    obtain ⟨text, hemit, hlines⟩ := emit_lines hg hp htexts hstanding
    obtain ⟨read, htells, hread⟩ := hmembers.result htexts
    refine ⟨fun e he => ?_, fun _ _ => ⟨_, hemit⟩, fun e he => ?_⟩
    · obtain rfl := Except.ok.inj (hemit.symm.trans he)
      have htold : Tells (trimmedLines text) (layoutAttributes g.elements b) read := by
        rw [hlines]
        exact tells_lines (tells_memberLines htells)
      have henumerations := htold.enumerations []
      rw [List.append_nil] at henumerations
      rw [String.toList_ofList, attributesOf, enumerationsOf, visible_tidy, henumerations]
      exact ⟨htold.attributes, by simpa [readEnumerations] using hread⟩
    · exact absurd (hemit.symm.trans he) (by simp)

/-- Two points in a wrapper and a struct nested next to it. -/
def segmentStruct : Struct where
  name := "Segment"
  comment := "// shapes.h:4:8"
  type := ⟨.text "Segment", "Segment", .int 8, .int 4, none⟩
  fields := [⟨"ends", "ends", "", ⟨.text "Point", "Point", .int 8, .int 4, some (.int 2)⟩, .int 0,
    .int (-1), false⟩]
  nested := [⟨"Point", "", ⟨.text "Point", "Point", .int 4, .int 4, none⟩, [], []⟩]

def segmentGenerator : Generator where
  libraryName := "shapes"
  className := none
  namespaceName := none
  usings := []
  elements := primitiveElements

def segmentBindings : Bindings where
  functions := []
  functionPointers := []
  structs := [segmentStruct]
  opaqueStructs := []
  enumerations := [⟨"Side", "", ⟨.text "int", "int", .int 4, .int 4, none⟩, [⟨"LEFT", "", .int (-1)⟩]⟩]

theorem segmentStruct_integral : segmentStruct.Meets integral := by
  have hname (s : String) (h : SingleLine s.toList) : integral.name s := h
  refine .mk (hname "Segment" (by decide)) (Or.inr ⟨by decide, by decide⟩) ?_ ?_ ?_
  · exact ⟨⟨"Segment", rfl, (by decide : SingleLine "Segment".toList)⟩, ⟨8, rfl⟩, ⟨4, rfl⟩,
      fun _ h => absurd h (by simp)⟩
  · intro f hf
    rw [List.mem_singleton.mp hf]
    refine ⟨hname "ends" (by decide), hname "ends" (by decide), ?_, ⟨0, rfl⟩, ⟨-1, rfl⟩⟩
    exact ⟨⟨"Point", rfl, (by decide : SingleLine "Point".toList)⟩, ⟨8, rfl⟩, ⟨4, rfl⟩,
      fun n h => ⟨2, (Option.some.inj h).symm⟩⟩
  · intro s hs
    rw [List.mem_singleton.mp hs]
    refine .mk (hname "Point" (by decide)) (Or.inl rfl) ?_ (by simp) (by simp)
    exact ⟨⟨"Point", rfl, (by decide : SingleLine "Point".toList)⟩, ⟨4, rfl⟩, ⟨4, rfl⟩,
      fun _ h => absurd h (by simp)⟩

theorem segmentBindings_integral : segmentBindings.Meets integral where
  functions _ h := absurd h (by simp [segmentBindings])
  functionPointers _ h := absurd h (by simp [segmentBindings])
  structs s hs := by
    rw [List.mem_singleton.mp hs]
    exact segmentStruct_integral
  opaqueStructs _ h := absurd h (by simp [segmentBindings])
  enumerations e he := by
    rw [List.mem_singleton.mp he]
    refine ⟨(by decide : SingleLine "Side".toList), Or.inl rfl, ⟨⟨"int", rfl,
      (by decide : SingleLine "int".toList)⟩, ⟨4, rfl⟩, ⟨4, rfl⟩, fun _ h => absurd h (by simp)⟩, ?_⟩
    intro m hm
    rw [List.mem_singleton.mp hm]
    exact ⟨⟨by decide, List.all_eq_true.mp (by decide)⟩, trivial⟩

theorem writable_of_lt_ten {n : Int} (h : n.natAbs < 10) : writable.number (.int n) := by
  intro k hk
  rw [← Number.int.inj hk]
  exact short_of_lt_ten h

theorem segmentStruct_writable : segmentStruct.Meets writable := by
  have hnumber (n : Int) (h : n.natAbs < 10) := writable_of_lt_ten h
  refine .mk trivial trivial ?_ ?_ ?_
  · exact ⟨⟨"Segment", rfl, trivial⟩, hnumber 8 (by decide), hnumber 4 (by decide),
      fun _ h => absurd h (by simp)⟩
  · intro f hf
    rw [List.mem_singleton.mp hf]
    refine ⟨trivial, trivial, ⟨⟨"Point", rfl, trivial⟩, hnumber 8 (by decide), hnumber 4 (by decide),
      fun n h => ?_⟩, hnumber 0 (by decide), hnumber (-1) (by decide)⟩
    rw [← Option.some.inj h]
    exact hnumber 2 (by decide)
  · intro s hs
    rw [List.mem_singleton.mp hs]
    exact .mk trivial trivial ⟨⟨"Point", rfl, trivial⟩, hnumber 4 (by decide), hnumber 4 (by decide),
      fun _ h => absurd h (by simp)⟩ (by simp) (by simp)

theorem segmentBindings_writable : segmentBindings.Meets writable where
  functions _ h := absurd h (by simp [segmentBindings])
  functionPointers _ h := absurd h (by simp [segmentBindings])
  structs s hs := by
    rw [List.mem_singleton.mp hs]
    exact segmentStruct_writable
  opaqueStructs _ h := absurd h (by simp [segmentBindings])
  enumerations e he := by
    have hnumber (n : Int) (h : n.natAbs < 10) := writable_of_lt_ten h
    rw [List.mem_singleton.mp he]
    refine ⟨trivial, trivial, ⟨⟨"int", rfl, trivial⟩, hnumber 4 (by decide), hnumber 4 (by decide),
      fun _ h => absurd h (by simp)⟩, ?_⟩
    intro m hm
    rw [List.mem_singleton.mp hm]
    exact ⟨trivial, hnumber (-1) (by decide)⟩

theorem segmentGenerator_singleLine : segmentGenerator.All fun s => SingleLine s.toList where
  libraryName := by decide
  className s hs := absurd hs (by simp [segmentGenerator])
  namespaceName s hs := absurd hs (by simp [segmentGenerator])
  usings s hs := absurd hs (by simp [segmentGenerator])

theorem segmentGenerator_keywords : SingleLineKeywords segmentGenerator.elements :=
  (by decide : ∀ entry ∈ segmentGenerator.elements, SingleLine entry.2.toList)

/-- The field, its wrapper with two slots, and the nested struct below them. -/
theorem layout_reads_back_segment :
    ∃ p e, segmentGenerator.profile = .ok p ∧ emit p segmentBindings = .ok e
      ∧ attributesOf e.source.toList =
        [some (.layout 8 4), some (.place 0 8 (-1)), some (.layout 8 4), some (.place 0 4 0),
          some (.place 4 4 0), some (.layout 4 4)] := by
  obtain ⟨p, hp⟩ : ∃ p, segmentGenerator.profile = .ok p := ⟨_, rfl⟩
  obtain ⟨hread, hreturns, _⟩ :=
    layout_reads_back segmentGenerator_singleLine segmentGenerator_keywords hp
      segmentBindings_integral
  have hattributes : layoutAttributes segmentGenerator.elements segmentBindings =
      [.layout 8 4, .place 0 8 (-1), .layout 8 4, .place 0 4 0, .place 4 4 0, .layout 4 4] := by
    decide
  have hshort : ∀ a ∈ layoutAttributes segmentGenerator.elements segmentBindings, a.Short := by
    have hnumber (n : Int) (h : n.natAbs < 10) : Number.Short n := short_of_lt_ten h
    have hlayout (s p : Int) (hs : s.natAbs < 10) (hp : p.natAbs < 10) :
        (Attribute.layout s p).Short := ⟨hnumber s hs, hnumber p hp⟩
    have hplace (o s p : Int) (ho : o.natAbs < 10) (hs : s.natAbs < 10) (hp : p.natAbs < 10) :
        (Attribute.place o s p).Short := ⟨hnumber o ho, hnumber s hs, hnumber p hp⟩
    intro a ha
    rw [hattributes] at ha
    simp only [List.mem_cons, List.not_mem_nil, or_false] at ha
    rcases ha with rfl | rfl | rfl | rfl | rfl | rfl
    · exact hlayout 8 4 (by decide) (by decide)
    · exact hplace 0 8 (-1) (by decide) (by decide) (by decide)
    · exact hlayout 8 4 (by decide) (by decide)
    · exact hplace 0 4 0 (by decide) (by decide) (by decide)
    · exact hplace 4 4 0 (by decide) (by decide) (by decide)
    · exact hlayout 4 4 (by decide) (by decide)
  obtain ⟨e, he⟩ := hreturns segmentBindings_writable hshort
  refine ⟨p, e, hp, he, ?_⟩
  rw [(hread e he).1, hattributes]
  rfl

/-! ## A keyword of two lines

The keyword of an element is written as it is.  One with a line break in it can put a line into the
file that reads like an attribute. -/

def brokenKeyword : Generator :=
  { segmentGenerator with elements := [("byte", "byte\n[FieldOffset(9)] // size = 9, padding = 9\n")] }

def bufferStruct : Struct where
  name := "Buffer"
  comment := ""
  type := ⟨.text "Buffer", "Buffer", .int 4, .int 1, none⟩
  fields := [⟨"data", "data", "", ⟨.text "byte", "byte", .int 4, .int 1, some (.int 4)⟩, .int 0,
    .int 0, false⟩]
  nested := []

def bufferBindings : Bindings where
  functions := []
  functionPointers := []
  structs := [bufferStruct]
  opaqueStructs := []
  enumerations := []

def bufferLines : List (List Char) :=
  [layoutLine 4 1, "public struct Buffer".toList, ['\x7b'],
   "    ".toList ++ placeLine 0 4 0, "    public fixed byte".toList,
   "    ".toList ++ placeLine 9 9 9, "     data[4];".toList, ['\x7d']]

theorem bufferStruct_text :
    Struct.text brokenKeyword.elements bufferStruct = .ok (joinLines bufferLines) := by
  have h : (Struct.text brokenKeyword.elements bufferStruct).toOption =
      some (joinLines bufferLines) := by decide +kernel
  cases ht : Struct.text brokenKeyword.elements bufferStruct with
  | error e => rw [ht] at h; exact absurd h (by simp [Except.toOption])
  | ok t => rw [ht] at h; rw [Option.some.inj h]

theorem bufferStruct_integral : bufferStruct.Meets integral := by
  have hname (s : String) (h : SingleLine s.toList) : integral.name s := h
  refine .mk (hname "Buffer" (by decide)) (Or.inl rfl) ?_ ?_ (by simp)
  · exact ⟨⟨"Buffer", rfl, (by decide : SingleLine "Buffer".toList)⟩, ⟨4, rfl⟩, ⟨1, rfl⟩,
      fun _ h => absurd h (by simp)⟩
  · intro f hf
    rw [List.mem_singleton.mp hf]
    refine ⟨hname "data" (by decide), hname "data" (by decide), ?_, ⟨0, rfl⟩, ⟨0, rfl⟩⟩
    exact ⟨⟨"byte", rfl, (by decide : SingleLine "byte".toList)⟩, ⟨4, rfl⟩, ⟨1, rfl⟩,
      fun n h => ⟨4, (Option.some.inj h).symm⟩⟩

theorem standing_bufferLines : Standing (joinLines bufferLines) where
  newlinesOnly := by decide +kernel
  first := ⟨'[', _, rfl, by decide, by decide⟩
  last := by
    unfold joinLines bufferLines joinWith
    repeat refine Finishes.append _ ?_
    exact ⟨[], '\x7d', rfl, by decide, by decide⟩

theorem brokenKeyword_names : brokenKeyword.All fun s => SingleLine s.toList where
  libraryName := by decide
  className s hs := absurd hs (by simp [brokenKeyword, segmentGenerator])
  namespaceName s hs := absurd hs (by simp [brokenKeyword, segmentGenerator])
  usings s hs := absurd hs (by simp [brokenKeyword, segmentGenerator])

theorem bufferBindings_integral : bufferBindings.Meets integral where
  functions _ h := absurd h (by simp [bufferBindings])
  functionPointers _ h := absurd h (by simp [bufferBindings])
  structs s hs := by
    rw [List.mem_singleton.mp hs]
    exact bufferStruct_integral
  opaqueStructs _ h := absurd h (by simp [bufferBindings])
  enumerations _ h := absurd h (by simp [bufferBindings])

/-- The file has an attribute that no field has, though all names are on one line. -/
theorem broken_keyword_misread :
    brokenKeyword.All (fun s => SingleLine s.toList) ∧ bufferBindings.Meets integral
      ∧ ∃ p e, brokenKeyword.profile = .ok p ∧ emit p bufferBindings = .ok e
        ∧ attributesOf e.source.toList ≠
          (layoutAttributes brokenKeyword.elements bufferBindings).map some := by
  refine ⟨brokenKeyword_names, bufferBindings_integral, ?_⟩
  obtain ⟨p, hp⟩ : ∃ p, brokenKeyword.profile = .ok p := ⟨_, rfl⟩
  have htexts : bufferBindings.members.mapM (memberText brokenKeyword.elements) =
      .ok [joinLines bufferLines] := by
    show [Member.struct bufferStruct].mapM (memberText brokenKeyword.elements) = _
    rw [List.mapM_cons, memberText, bufferStruct_text]
    rfl
  have hstanding : ∀ t ∈ [joinLines bufferLines], Standing t := by
    intro t ht
    rw [List.mem_singleton.mp ht]
    exact standing_bufferLines
  obtain ⟨text, hemit, hlines⟩ := emit_lines brokenKeyword_names hp htexts hstanding
  refine ⟨p, _, hp, hemit, ?_⟩
  have htells : Tells (trimmedLines (joinLines bufferLines))
      [.layout 4 1, .place 0 4 0, .place 9 9 9] [] := by
    have hlines : trimmedLines (joinLines bufferLines) = bufferLines := by decide +kernel
    have hheader : Tells [trimLine "public struct Buffer".toList, trimLine ['\x7b']] [] [] :=
      (Tells.other (by decide)).append (Tells.other (by decide))
    have hfield := (tells_placeLine 0 4 0 (by decide : unindent "public fixed byte".toList ≠ [])
      (by decide)).shift 4
    have hbroken := (tells_placeLine 9 9 9 (by decide : unindent " data[4];".toList ≠ [])
      (by decide)).shift 4
    have hclose : Tells [trimLine ['\x7d']] [] [] := Tells.other (by decide)
    rw [hlines]
    exact (tells_layoutLine 4 1).append (hheader.append (hfield.append (hbroken.append hclose)))
  have htold : Tells (trimmedLines text) [.layout 4 1, .place 0 4 0, .place 9 9 9] [] := by
    rw [hlines]
    refine tells_lines (tells_memberLines ?_)
    rw [List.flatMap_singleton]
    exact htells
  have hattributes : layoutAttributes brokenKeyword.elements bufferBindings =
      [.layout 4 1, .place 0 4 0] := by decide
  rw [String.toList_ofList, attributesOf, visible_tidy, htold.attributes, hattributes]
  decide

end Interop.Source
