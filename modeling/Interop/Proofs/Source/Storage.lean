import Interop.Proofs.Source.Blocks

/-!
# The storage of fields

Whether an array can be declared in place is asked twice.  Lowering asks its table and marks the
field; emission asks its own for every array that is not marked, among them those of aliases and
opaque pointers, which nobody has marked.  With one table for both, a mark says what emission would
have found, and every field is declared as the table says (`StoredAs`).  With two tables, a marked
field gets a wrapper whatever the second one says, and any other field is declared as the second one
says; so a keyword that is missing is never written (`fields_stored`).
-/

set_option autoImplicit false

namespace Interop.Source

open Binding Text

/-! ## What a table says of a field -/

/-- What the table gives for the name of a type, without the blanks around it: the keyword of an
element, or nothing.  It gives neither if the name is no text. -/
def Maps (elements : ElementTable) (t : TypeUse) (keyword : Option String) : Prop :=
  ∃ name : String, t.name = .text name ∧ elementKeyword? elements name.toList = keyword

/-- The storage of a field is the one that the table says. -/
structure StoredAs (elements : ElementTable) (f : Field) (storage : Storage) : Prop where
  in_place : ∀ keyword n, storage = .inPlace keyword n ↔
    f.type.count = some n ∧ Maps elements f.type (some keyword)
  wrapped : ∀ name, storage = .wrapper name ↔
    name = wrapperName f ∧ f.type.isArray = true ∧ Maps elements f.type none
  plain : ∀ type, storage = .plain type ↔ type = f.type.name ∧ f.type.count = none

/-- A field that is marked is an array that the table has no keyword for. -/
def MarkedWithReason (elements : ElementTable) (f : Field) : Prop :=
  f.isWrapped = true → f.type.isArray = true ∧ Maps elements f.type none

/-- The mark of a field says what the table does. -/
structure Marked (elements : ElementTable) (f : Field) : Prop where
  needs : needsWrapper elements f = .ok f.isWrapped
  reason : MarkedWithReason elements f

section Fields

variable {elements : ElementTable} {t : TypeUse} {f : Field} {keyword : Option String}

theorem elementKeyword_eq_ok : elementKeyword elements t.name = .ok keyword ↔
    Maps elements t keyword := by
  unfold elementKeyword Maps
  cases t.name with
  | text name => simp [Value.characters, Except.map]
  | _ => simp [Value.characters, Except.map]

theorem Maps.unique {keyword' : Option String} (h : Maps elements t keyword)
    (h' : Maps elements t keyword') : keyword = keyword' :=
  Except.ok.inj ((elementKeyword_eq_ok.mpr h).symm.trans (elementKeyword_eq_ok.mpr h'))

theorem storedAs_plain (hcount : f.type.count = none) :
    StoredAs elements f (.plain f.type.name) where
  in_place keyword n := by simp [hcount]
  wrapped name := by simp [TypeUse.isArray, hcount]
  plain type := by simp [hcount, eq_comm]

theorem storedAs_inPlace {n : Number} {keyword : String} (hcount : f.type.count = some n)
    (hmaps : Maps elements f.type (some keyword)) : StoredAs elements f (.inPlace keyword n) where
  in_place keyword' n' := by
    rw [hcount]
    constructor
    · intro h
      cases h
      exact ⟨rfl, hmaps⟩
    · rintro ⟨hn, hmaps'⟩
      cases hn
      rw [Option.some.inj (hmaps.unique hmaps')]
  wrapped name := by
    constructor
    · intro h
      cases h
    · rintro ⟨-, -, hnone⟩
      cases hmaps.unique hnone
  plain type := by simp [hcount]

theorem storedAs_wrapper (harray : f.type.isArray = true) (hmaps : Maps elements f.type none) :
    StoredAs elements f (.wrapper (wrapperName f)) where
  in_place keyword n := by
    constructor
    · intro h
      cases h
    · rintro ⟨-, hkeyword⟩
      cases hmaps.unique hkeyword
  wrapped name := by simp [harray, hmaps, eq_comm]
  plain type := by
    constructor
    · intro h
      cases h
    · rintro ⟨-, hcount⟩
      rw [TypeUse.isArray, hcount] at harray
      cases harray

theorem ofField_marked (h : f.isWrapped = true) :
    Storage.ofField elements f = .ok (.wrapper (wrapperName f)) := by
  simp [Storage.ofField, needsWrapper, h, faulty, Except.mapError]

/-- An array that is not marked is asked about; the answer is the same both times. -/
theorem ofField_array {n : Number} (h : f.isWrapped = false) (hcount : f.type.count = some n) :
    Storage.ofField elements f = (do
      match ← faulty (elementKeyword elements f.type.name) with
      | none => return .wrapper (wrapperName f)
      | some keyword => return .inPlace keyword n) := by
  unfold Storage.ofField needsWrapper
  simp only [h, TypeUse.isArray, hcount, Option.isSome_some, if_true, Bool.false_eq_true, if_false]
  cases elementKeyword elements f.type.name with
  | error e => rfl
  | ok keyword =>
    cases keyword with
    | none => rfl
    | some keyword => rfl

/-- A field that is not marked without reason is declared as the table says. -/
theorem ofField_stored (hmark : MarkedWithReason elements f) :
    Ends (Storage.ofField elements f) (StoredAs elements f) fun _ => True := by
  cases hwrapped : f.isWrapped with
  | true =>
    obtain ⟨harray, hnone⟩ := hmark hwrapped
    rw [ofField_marked hwrapped]
    exact Ends.ok (storedAs_wrapper harray hnone)
  | false =>
    cases hcount : f.type.count with
    | none =>
      have hplain : Storage.ofField elements f = .ok (.plain f.type.name) := by
        simp [Storage.ofField, needsWrapper, hwrapped, TypeUse.isArray, hcount, faulty,
          Except.mapError]
      rw [hplain]
      exact Ends.ok (storedAs_plain hcount)
    | some n =>
      rw [ofField_array hwrapped hcount]
      cases hkeyword : elementKeyword elements f.type.name with
      | error e => exact Ends.error trivial
      | ok keyword =>
        have hmaps := elementKeyword_eq_ok.mp hkeyword
        cases keyword with
        | none => exact Ends.ok (storedAs_wrapper (by simp [TypeUse.isArray, hcount]) hmaps)
        | some keyword => exact Ends.ok (storedAs_inPlace hcount hmaps)

end Fields

/-! ## Declarations in place -/

/-- The declaration of an array in place, with the text of its count. -/
def inPlaceText (keyword name : String) (count : List Char) : List Char :=
  "fixed ".toList ++ keyword.toList ++ (' ' :: name.toList ++ ('[' :: count ++ [']']))

/-- Behind a name that is known, the last part of a text begins at the last blank that is not in the
name. -/
theorem split_at_name {front front' name back back' : List Char} (hback : ' ' ∉ back)
    (hback' : ' ' ∉ back')
    (h : front ++ (' ' :: name ++ back) = front' ++ (' ' :: name ++ back')) :
    front = front' ∧ back = back' := by
  have hcount : (' ' :: name ++ back).count ' ' = (' ' :: name ++ back').count ' ' := by
    simp [List.count_append, List.count_eq_zero.mpr hback, List.count_eq_zero.mpr hback']
  -- What one front has more than the other has no blank in it, and yet begins with one.
  have hnone {more x y : List Char} (hsplit : ' ' :: x = more ++ y)
      (hsame : (' ' :: x).count ' ' = y.count ' ') : more = [] := by
    cases more with
    | nil => rfl
    | cons c more =>
      obtain ⟨rfl, rfl⟩ := List.cons.inj hsplit
      rw [List.count_cons_self, List.append_eq, List.count_append] at hsame
      omega
  rcases List.append_eq_append_iff.mp h with ⟨more, rfl, hmore⟩ | ⟨more, rfl, hmore⟩
  · obtain rfl := hnone hmore hcount
    exact ⟨(List.append_nil front).symm, List.append_cancel_left (List.cons.inj hmore).2⟩
  · obtain rfl := hnone hmore hcount.symm
    exact ⟨List.append_nil front', (List.append_cancel_left (List.cons.inj hmore).2).symm⟩

theorem space_notMem_of_numberText {n : Number} {digits : List Char}
    (h : numberText n = .ok digits) : ' ' ∉ digits := by
  intro hspace
  have hnumeral := (Number.text_ends n).result (mapError_eq_ok.mp h) ' ' hspace
  exact absurd hnumeral (by decide)

theorem declaration_inPlace (keyword : String) (n : Number) (name : String) :
    (Storage.inPlace keyword n).declaration name
      = (do return inPlaceText keyword name (← numberText n)) := by
  unfold Storage.declaration inPlaceText
  simp only [List.append_assoc, List.cons_append]

/-- A declaration reads like one in place when it is one. -/
theorem declaration_reads {storage : Storage} {name : String} {t : List Char}
    (h : storage.declaration name = .ok t) (keyword : String) {digits : List Char}
    (hdigits : ' ' ∉ digits) : t = inPlaceText keyword name digits ↔
      ∃ n, storage = .inPlace keyword n ∧ n.text = .ok digits := by
  have hback {x : List Char} (hx : ' ' ∉ x) : ' ' ∉ '[' :: x ++ [']'] := by simpa using hx
  have hplain {type : Value} (h : faulty (declaration type name) = .ok t) :
      t ≠ inPlaceText keyword name digits := by
    obtain ⟨chars, -, ht⟩ := bind_eq_ok.mp (mapError_eq_ok.mp h)
    obtain rfl : normalizePointers chars ++ (' ' :: name.toList ++ []) = t := by
      rw [List.append_nil]
      exact Except.ok.inj ht
    intro heq
    have hend := (split_at_name List.not_mem_nil (hback hdigits) heq).2
    cases hend
  cases storage with
  | plain type => simp [hplain h]
  | wrapper wrapperName => simp [hplain h]
  | inPlace keyword' n =>
    rw [declaration_inPlace] at h
    obtain ⟨digits', hn, ht⟩ := bind_eq_ok.mp h
    cases ht
    constructor
    · intro heq
      obtain ⟨hfront, hend⟩ :=
        split_at_name (hback (space_notMem_of_numberText hn)) (hback hdigits) heq
      obtain rfl := String.toList_injective (List.append_cancel_left hfront)
      obtain rfl := List.append_cancel_right (List.cons.inj hend).2
      exact ⟨n, rfl, mapError_eq_ok.mp hn⟩
    · rintro ⟨n', hstorage, hn'⟩
      cases hstorage
      rw [Except.ok.inj ((mapError_eq_ok.mp hn).symm.trans hn')]

/-- A field is declared in its line as the table says, and the text of its declaration tells whether
that is in place. -/
structure Stored (elements : ElementTable) (f : Field) (line : FieldLine) : Prop where
  name : line.name = f.name
  storage : StoredAs elements f line.storage
  text : ∃ t, line.storage.declaration f.name = .ok t ∧ ∀ keyword digits, ' ' ∉ digits →
    (t = inPlaceText keyword f.name digits ↔ Maps elements f.type (some keyword)
      ∧ ∃ n, f.type.count = some n ∧ n.text = .ok digits)

theorem stored_of_storedAs {elements : ElementTable} {f : Field} {line : FieldLine} {t : List Char}
    (hname : line.name = f.name) (h : StoredAs elements f line.storage)
    (ht : line.storage.declaration line.name = .ok t) : Stored elements f line := by
  rw [hname] at ht
  refine ⟨hname, h, t, ht, fun keyword digits hdigits => ?_⟩
  rw [declaration_reads ht keyword hdigits]
  simp only [h.in_place]
  constructor
  · rintro ⟨n, ⟨hcount, hmaps⟩, hn⟩
    exact ⟨hmaps, n, hcount, hn⟩
  · rintro ⟨hmaps, n, hcount, hn⟩
    exact ⟨n, ⟨hcount, hmaps⟩, hn⟩

/-! ## Blocks, field by field -/

/-- A block has a line for each field of a struct and a block for each struct nested in it, at every
depth, and the wrappers that it uses. -/
inductive BlockOf (R : Field → FieldLine → Prop) : Struct → StructBlock → Prop
  | node {s : Struct} {b : StructBlock} (name : b.name = s.name)
      (fields : List.Forall₂ R s.fields b.fields) (wrappers : b.used = b.declared)
      (nested : List.Forall₂ (BlockOf R) s.nested b.nested) : BlockOf R s b

section Blocks

variable {elements : ElementTable} {P : Field → Prop} {R : Field → FieldLine → Prop}

/-- What becomes of each field that satisfies a predicate becomes of all fields of a struct. -/
theorem block_of_fields (hR : ∀ f line t, P f → fieldLine elements f = .ok line →
      line.text = .ok t → R f line) {s : Struct} (hs : s.Fields P) :
    Ends (Struct.block elements s) (fun b => ∀ t, b.text = .ok t → BlockOf R s b)
      fun _ => True := by
  induction hs with
  | @mk name comment type fields nested hfields _ ih =>
    rw [Struct.block, nestedBlocks_eq]
    have hlines : Ends (fields.mapM (fieldLine elements))
        (List.Forall₂ (fun f line => P f ∧ fieldLine elements f = .ok line) fields)
        fun _ => True :=
      Ends.mapM fun f hf => ((Ends.any _).also fun line hline => hline).giving
        fun line hline => ⟨hfields f hf, hline.1⟩
    refine hlines.bind fun lines hlines => ?_
    refine ((Ends.any _).also fun ws hws => hws).bind fun ws hws => ?_
    refine (Ends.mapM ih).bind fun inner hinner => Ends.ok fun t ht => ?_
    simp only [StructBlock.text, blockTexts_eq, bind_eq_ok] at ht
    obtain ⟨lineTexts, hlineTexts, -, -, innerTexts, hinnerTexts, -⟩ := ht
    refine .node rfl ?_ ?_ ?_
    · refine forall₂_of_mem_right hlines fun f line hline h => ?_
      obtain ⟨text, htext⟩ := exists_mapM_eq_ok.mp ⟨_, hlineTexts⟩ line hline
      exact hR f line text h.1 h.2 htext
    · exact used_eq_declared (mapM_eq_ok.mpr (hlines.imp fun _ _ h => h.2)) hws.1
    · refine forall₂_of_mem_right hinner fun s b hb h => ?_
      obtain ⟨text, htext⟩ := exists_mapM_eq_ok.mp ⟨_, hinnerTexts⟩ b hb
      exact h text htext

end Blocks

/-! ## Marks -/

section Marks

variable {o : Options}

theorem lowerField_marked (c : Decl.Field) :
    Ends (lowerField o c) (Marked o.elements) fun _ => True := by
  unfold lowerField
  dsimp only
  by_cases harray : (TypeUse.ofDecl o.booleanTypeName c.type).isArray = true
  · rw [if_pos harray]
    cases hkeyword : elementKeyword o.elements (TypeUse.ofDecl o.booleanTypeName c.type).name with
    | error e => exact Ends.error trivial
    | ok keyword =>
      have hmaps := elementKeyword_eq_ok.mp hkeyword
      refine Ends.of_ok rfl ((Ends.any _).bind fun comment _ => Ends.ok ?_)
      cases keyword with
      | none => exact ⟨rfl, fun _ => ⟨harray, hmaps⟩⟩
      | some keyword =>
        refine ⟨?_, fun hwrapped => by cases hwrapped⟩
        simp [needsWrapper, harray, hkeyword, Except.map]
  · rw [if_neg harray]
    refine Ends.of_ok rfl ((Ends.any _).bind fun comment _ => Ends.ok ⟨?_, fun hwrapped => ?_⟩)
    · simp [needsWrapper, harray]
    · cases hwrapped

theorem lowerRecord_marked (r : Decl.Record) :
    Ends (lowerRecord o r) (·.Fields (Marked o.elements)) fun _ => True := by
  refine lowerRecord_of_nodes (M := fun _ s => s.Fields (Marked o.elements)) ?_ r
  rintro r ⟨_, _, _, fields, nested⟩ - - hfields hnested
  refine .mk ?_ ?_
  · exact forall_of_forall₂ hfields fun c f hf => (lowerField_marked c).result hf
  · exact forall_of_forall₂ hnested fun _ _ h => h

/-- The only field of an alias or an opaque pointer is not marked. -/
theorem singleField_unmarked (name : String) (location : Option Decl.Location) (fieldName : String)
    (type : Decl.TypeUse) :
    Ends (singleField o name location fieldName type) (·.Fields (·.isWrapped = false))
      fun _ => True := by
  refine (Ends.any _).bind fun comment _ => Ends.ok (.mk ?_ ?_)
  · intro f hf
    rw [List.mem_singleton.mp hf]
  · intro s hs
    cases hs

theorem lowered_marks {h : Decl.Header} {l : Lowered} (hl : lower o h = .ok l) :
    ∀ s ∈ l.bindings.structs, s.Fields (MarkedWithReason o.elements) := by
  have hsingle (name : String) (location : Option Decl.Location) (fieldName : String)
      (type : Decl.TypeUse) : Ends (singleField o name location fieldName type)
        (·.Fields (MarkedWithReason o.elements)) fun _ => True := by
    refine (singleField_unmarked name location fieldName type).giving fun s hs => ?_
    refine hs.mono fun f hf hwrapped => ?_
    rw [hf] at hwrapped
    cases hwrapped
  refine lowered_structs hl (fun r _ => ?_) (fun a _ => hsingle _ _ _ _) fun p _ => hsingle _ _ _ _
  exact (lowerRecord_marked r).giving fun s hs => hs.mono fun f hf => hf.reason

end Marks

/-! ## Whole headers -/

section Lines

variable {elements : ElementTable} {f : Field} {line : FieldLine} {t : List Char}

theorem fieldLine_stored (hmark : MarkedWithReason elements f)
    (hline : fieldLine elements f = .ok line) (ht : line.text = .ok t) : Stored elements f line := by
  obtain ⟨storage, hstorage, hline⟩ := bind_eq_ok.mp hline
  cases hline
  obtain ⟨declared, hdeclared, -⟩ := bind_eq_ok.mp ht
  exact stored_of_storedAs rfl ((ofField_stored hmark).result hstorage) hdeclared

theorem fieldLine_marked (hmark : f.isWrapped = true) (hline : fieldLine elements f = .ok line) :
    line.storage = .wrapper (wrapperName f) := by
  obtain ⟨storage, hstorage, hline⟩ := bind_eq_ok.mp hline
  cases hline
  rw [ofField_marked hmark] at hstorage
  exact (Except.ok.inj hstorage).symm

theorem Struct.text_fields {P : Field → Prop} {R : Field → FieldLine → Prop}
    (hR : ∀ f line t, P f → fieldLine elements f = .ok line → line.text = .ok t → R f line)
    {s : Struct} (hs : s.Fields P) (ht : Struct.text elements s = .ok t) :
    ∃ b, Struct.block elements s = .ok b ∧ b.text = .ok t ∧ BlockOf R s b := by
  obtain ⟨b, hb, hbt⟩ := Struct.text_eq_ok.mp ht
  exact ⟨b, hb, hbt, (block_of_fields hR hs).result hb t hbt⟩

end Lines

/-- **Lowering and emission agree on the storage of fields.**  A field of a record or of a record
nested in it needs a wrapper exactly if it is marked.  In the blocks of all structs, each field is
declared in place if it has a count and the table maps its type to a keyword, with a wrapper if it
has a count and the table does not, and plainly if it has no count.  For another table this is so for
every field that is not marked, and a marked one keeps its wrapper. -/
theorem fields_stored {o : Options} {h : Decl.Header} {l : Lowered} (hl : lower o h = .ok l) :
    (∀ r ∈ h.records, ∀ s, lowerRecord o r = .ok s →
        s.Fields fun f => needsWrapper o.elements f = .ok f.isWrapped)
      ∧ (∀ s ∈ l.bindings.structs, ∀ t, Struct.text o.elements s = .ok t →
        ∃ b, Struct.block o.elements s = .ok b ∧ b.text = .ok t
          ∧ BlockOf (Stored o.elements) s b)
      ∧ ∀ elements, ∀ s ∈ l.bindings.structs, ∀ t, Struct.text elements s = .ok t →
        ∃ b, Struct.block elements s = .ok b ∧ b.text = .ok t
          ∧ BlockOf (fun f line => (f.isWrapped = true → line.storage = .wrapper (wrapperName f))
            ∧ (f.isWrapped = false → Stored elements f line)) s b := by
  refine ⟨fun r _ s hs => ?_, fun s hs t ht => ?_, fun elements s hs t ht => ?_⟩
  · exact ((lowerRecord_marked r).result hs).mono fun f hf => hf.needs
  · exact Struct.text_fields (fun f line t hmark => fieldLine_stored hmark) (lowered_marks hl s hs) ht
  · refine Struct.text_fields (fun f line t _ hline htext => ⟨fun hmark => ?_, fun hmark => ?_⟩)
      (lowered_marks hl s hs) ht
    · exact fieldLine_marked hmark hline
    · refine fieldLine_stored (fun hwrapped => ?_) hline htext
      rw [hmark] at hwrapped
      cases hwrapped

/-! A record with an array of no elements, an array of a system type that is given another name, and
an alias over the same type as one of its fields. -/

def frameRecord : Decl.Record :=
  let array (name : String) (count : Int) (isSystem : Bool) : Decl.TypeUse :=
    { name, nativeName := name, sizeOf := .int (4 * count), alignOf := .int 4
      arraySize := some (.int count), isSystem }
  ⟨"Frame", none, sizedType "Frame" (.int 24),
    [⟨"raw", none, array " int " 0 false, .int 0, .int 0⟩,
     ⟨"flags", none, array "bool" 2 true, .int 0, .int 0⟩,
     ⟨"path", none, arrayType "Point" 1, .int 8, .int 0⟩,
     ⟨"id", none, sizedType "int" (.int 8), .int 16, .int 0⟩],
    [⟨"Inner", none, sizedType "Inner" (.int 12),
      [⟨"bytes", none, array "uint8" 3 false, .int 0, .int 0⟩], []⟩]⟩

def frameHeader : Decl.Header where
  functions := []
  functionPointers := []
  records := [frameRecord]
  opaquePointers := [⟨"Handle", none, sizedType "void*" (.int 8)⟩]
  opaqueTypes := []
  aliases := [⟨"Points", none, arrayType "Point" 2⟩]
  enumerations := []

/-- A table with no primitive type in it. -/
def pointElements : ElementTable := [("Point", "point")]

/-- What the fields of a struct declare. -/
def declaredTexts (elements : ElementTable) (s : Struct) : List String :=
  match Struct.block elements s with
  | .ok b => b.fields.filterMap fun line =>
    (line.storage.declaration line.name).toOption.map String.ofList
  | .error _ => []

theorem fields_stored_frame :
    ∃ l, lower Options.default frameHeader = .ok l
      ∧ l.bindings.structs.map (declaredTexts primitiveElements)
        = [["fixed int raw[0]", "_flags_FixedBuffer flags", "_path_FixedBuffer path", "int id"],
           ["_Data_FixedBuffer Data"], ["void* Pointer"]]
      ∧ l.bindings.structs.map (declaredTexts pointElements)
        = [["_raw_FixedBuffer raw", "_flags_FixedBuffer flags", "_path_FixedBuffer path", "int id"],
           ["fixed point Data[2]"], ["void* Pointer"]]
      ∧ (∃ s, lowerRecord Options.default frameRecord = .ok s
        ∧ s.Fields fun f => needsWrapper primitiveElements f = .ok f.isWrapped)
      ∧ (∀ s ∈ l.bindings.structs, ∃ b, Struct.block primitiveElements s = .ok b
        ∧ BlockOf (Stored primitiveElements) s b)
      ∧ ∀ s ∈ l.bindings.structs, ∃ b, Struct.block pointElements s = .ok b
        ∧ BlockOf (fun f line => (f.isWrapped = true → line.storage = .wrapper (wrapperName f))
          ∧ (f.isWrapped = false → Stored pointElements f line)) s b := by
  have hrun : (lower Options.default frameHeader).toOption.map (fun l =>
      (l.bindings.structs.map (declaredTexts primitiveElements),
       l.bindings.structs.map (declaredTexts pointElements),
       l.bindings.structs.all fun s => (Struct.text primitiveElements s).toOption.isSome
        && (Struct.text pointElements s).toOption.isSome))
      = some
        ([["fixed int raw[0]", "_flags_FixedBuffer flags", "_path_FixedBuffer path", "int id"],
          ["_Data_FixedBuffer Data"], ["void* Pointer"]],
         [["_raw_FixedBuffer raw", "_flags_FixedBuffer flags", "_path_FixedBuffer path", "int id"],
          ["fixed point Data[2]"], ["void* Pointer"]],
         true) := by
    decide +kernel
  have hrecord : (lowerRecord Options.default frameRecord).toOption.isSome = true := by
    decide +kernel
  obtain ⟨frame, hframe⟩ := Option.isSome_iff_exists.mp hrecord
  replace hframe := toOption_eq_some.mp hframe
  cases hl : lower Options.default frameHeader with
  | error fault =>
    rw [hl] at hrun
    cases hrun
  | ok l =>
    rw [hl] at hrun
    obtain ⟨hprimitive, hrest⟩ := Prod.mk.inj (Option.some.inj hrun)
    obtain ⟨hpoint, hall⟩ := Prod.mk.inj hrest
    have hfields := (fields_stored hl).1 frameRecord (List.mem_singleton_self _) frame hframe
    refine ⟨l, rfl, hprimitive, hpoint, ⟨frame, hframe, hfields⟩, fun s hs => ?_, fun s hs => ?_⟩
    · obtain ⟨hwritten, -⟩ := Bool.and_eq_true_iff.mp (List.all_eq_true.mp hall s hs)
      obtain ⟨t, ht⟩ := Option.isSome_iff_exists.mp hwritten
      obtain ⟨b, hb, -, hblock⟩ := (fields_stored hl).2.1 s hs t (toOption_eq_some.mp ht)
      exact ⟨b, hb, hblock⟩
    · obtain ⟨-, hwritten⟩ := Bool.and_eq_true_iff.mp (List.all_eq_true.mp hall s hs)
      obtain ⟨t, ht⟩ := Option.isSome_iff_exists.mp hwritten
      obtain ⟨b, hb, -, hblock⟩ := (fields_stored hl).2.2 _ s hs t (toOption_eq_some.mp ht)
      exact ⟨b, hb, hblock⟩

end Interop.Source
