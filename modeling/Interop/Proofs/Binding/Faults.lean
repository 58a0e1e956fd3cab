import Interop.Binding.Lowering
import Interop.Proofs.Number.Sum

/-!
# Faults of lowering

Lowering writes the line numbers of locations and counts up the digits at the end of names, and an
integer of more digits than the limit has no text.  Adding up the fields of a record is the only
arithmetic in it, and only sums that mix doubles with large integers fail (`Number.Unsummable`).
Nothing else goes wrong, but that the stand-in for the boolean type is no text (`Nameless`).
-/

set_option autoImplicit false

namespace Interop

/-- The faults of integers with more digits than the limit. -/
inductive Fault.IsDigitLimit : Fault → Prop
  | read (count : Nat) : IsDigitLimit (.number (.tooManyDigitsToRead count))
  | write : IsDigitLimit (.number .tooManyDigitsToWrite)

namespace Binding

/-! ## Records with sums that fail -/

/-- The numbers that have to add up to the size of a record. -/
def extents (fields : List Decl.Field) : List Number :=
  fields.flatMap fun f => [f.type.sizeOf, f.padding]

mutual

/-- A record and all records nested in it. -/
def withNested : Decl.Record → List Decl.Record
  | ⟨name, location, type, fields, nested⟩ =>
    ⟨name, location, type, fields, nested⟩ :: allNested nested

def allNested : List Decl.Record → List Decl.Record
  | [] => []
  | r :: rest => withNested r ++ allNested rest

end

/-- Layouts are checked, and nothing adds up to the size of one of the records. -/
structure SumFails (o : Options) (rs : List Decl.Record) : Prop where
  checked : o.validateLayout = true
  record : ∃ r ∈ rs, Number.Unsummable (extents r.fields)

/-- The faults that records can lead to. -/
def RecordFault (o : Options) (rs : List Decl.Record) (fault : Fault) : Prop :=
  fault.IsDigitLimit ∨ (fault = .number .tooLargeForDouble ∧ SumFails o rs)

theorem RecordFault.mono {o : Options} {rs rs' : List Decl.Record} (hrs : ∀ r ∈ rs, r ∈ rs')
    {fault : Fault} (h : RecordFault o rs fault) : RecordFault o rs' fault := by
  rcases h with h | ⟨hfault, hchecked, r, hr, hsum⟩
  · exact .inl h
  · exact .inr ⟨hfault, hchecked, r, hrs r hr, hsum⟩

/-! ## Names of types -/

/-- The name of the boolean type was to be spelled, and is no text. -/
inductive Nameless (o : Options) : Fault → Prop
  | lacks (h : ∀ s, o.booleanTypeName ≠ .text s) :
      Nameless o (.lacks o.booleanTypeName.kindName "strip")

theorem not_nameless {o : Options} {s : String} (hs : o.booleanTypeName = .text s)
    (fault : Fault) : ¬ Nameless o fault := by
  rintro ⟨h⟩
  exact h s hs

theorem characters_ends (operation : String) (v : Value) :
    Ends (v.characters operation) (fun _ => True)
      fun fault => fault = .lacks v.kindName operation ∧ ∀ s, v ≠ .text s := by
  cases v with
  | text s => exact Ends.ok trivial
  | _ => exact Ends.error ⟨rfl, fun _ => Value.noConfusion⟩

/-- A name from the header is a text, so only what stands in for a boolean type can be none. -/
theorem ofDecl_characters (o : Options) (t : Decl.TypeUse) :
    Ends ((TypeUse.ofDecl o.booleanTypeName t).name.characters "strip") (fun _ => True)
      (Nameless o) := by
  unfold TypeUse.ofDecl
  dsimp only
  split
  · refine (characters_ends "strip" o.booleanTypeName).failing ?_
    rintro _ ⟨rfl, hname⟩
    exact .lacks hname
  · exact Ends.ok trivial

theorem elementKeyword_ends {name : Value} {F : Fault → Prop} (table : ElementTable)
    (h : Ends (name.characters "strip") (fun _ => True) F) :
    Ends (elementKeyword table name) (fun _ => True) F := by
  unfold elementKeyword
  cases hname : name.characters "strip" with
  | ok t => exact Ends.ok trivial
  | error fault => exact Ends.error (h.failure hname)

/-! ## Steps -/

/-- A step of lowering is refused, or has a fault of some sort. -/
def FaultIn (P : Fault → Prop) : LoweringError → Prop
  | .refused _ => True
  | .fault fault => P fault

variable {α β : Type} {P : α → Prop} {F F' : Fault → Prop}

theorem FaultIn.mono (hF : ∀ fault, F fault → F' fault) : ∀ e, FaultIn F e → FaultIn F' e
  | .refused _, _ => trivial
  | .fault fault, h => hF fault h

/-- Only the number of digits can stand in the way of a text. -/
def DigitLimited (e : NumberFault) : Prop := (Fault.number e).IsDigitLimit

theorem numeric_ends {x : Except NumberFault α} (h : Ends x P DigitLimited) :
    Ends (numeric x) P (FaultIn Fault.IsDigitLimit) :=
  Ends.mapError h

theorem text_digitLimited (n : Number) : Ends n.text (fun _ => True) DigitLimited := by
  refine (Number.text_ends n).mono (fun _ _ => trivial) ?_
  rintro e rfl
  exact Fault.IsDigitLimit.write

theorem intText_digitLimited (n : Int) : Ends (Number.intText n) (fun _ => True) DigitLimited :=
  text_digitLimited (.int n)

theorem readDigits_digitLimited (ds : List Char) :
    Ends (Number.readDigits ds) (fun _ => True) DigitLimited := by
  unfold Number.readDigits
  split
  · exact Ends.error (.read ds.length)
  · exact Ends.ok trivial

theorem locationComment_digitLimited (location : Option Decl.Location) :
    Ends (Decl.locationComment location) (fun _ => True) DigitLimited := by
  cases location with
  | none => exact Ends.ok trivial
  | some l =>
    refine Ends.bind (P := fun _ => True) ?_ fun _ _ => Ends.ok trivial
    exact (text_digitLimited l.line).bind fun _ _ => Ends.ok trivial

theorem reasonText_digitLimited (r : Refusal) :
    Ends r.reasonText (fun _ => True) DigitLimited := by
  unfold Refusal.reasonText
  split
  · exact Ends.ok trivial
  · refine (text_digitLimited _).bind fun _ _ => ?_
    exact (text_digitLimited _).bind fun _ _ => Ends.ok trivial

/-! ## Names of parameters -/

theorem nextCandidate_digitLimited (name : List Char) :
    Ends (nextCandidate name) (fun _ => True) DigitLimited := by
  unfold nextCandidate
  split
  · exact Ends.ok trivial
  · refine (readDigits_digitLimited _).bind fun n _ => ?_
    exact (intText_digitLimited _).bind fun _ _ => Ends.ok trivial

theorem firstFree_digitLimited (taken : List String) (steps : Nat) (name : String) :
    Ends (firstFree taken steps name) (fun _ => True) DigitLimited := by
  induction steps generalizing name with
  | zero => exact Ends.ok trivial
  | succ steps ih =>
    unfold firstFree
    split
    · exact (nextCandidate_digitLimited _).bind fun next _ => ih _
    · exact Ends.ok trivial

theorem freeName_digitLimited (candidate : String) (taken : List String) :
    Ends (freeName candidate taken) (fun _ => True) DigitLimited :=
  firstFree_digitLimited taken _ _

/-! ## Declarations -/

section Declarations

variable (o : Options)

theorem comment_ends (location : Option Decl.Location) :
    Ends (numeric (Decl.locationComment location)) (fun _ => True)
      (FaultIn Fault.IsDigitLimit) :=
  numeric_ends (locationComment_digitLimited location)

theorem lowerParameters_ends (taken : List String) (ps : List Decl.Parameter) :
    Ends (lowerParameters o taken ps) (fun _ => True) (FaultIn Fault.IsDigitLimit) := by
  induction ps generalizing taken with
  | nil => exact Ends.ok trivial
  | cons p ps ih =>
    unfold lowerParameters
    refine (numeric_ends (freeName_digitLimited p.name taken)).bind fun name _ => ?_
    refine (comment_ends p.location).bind fun comment _ => ?_
    exact (ih (taken ++ [name])).bind fun _ _ => Ends.ok trivial

theorem lowerFunction_ends (f : Decl.Function) :
    Ends (lowerFunction o f) (fun _ => True) (FaultIn Fault.IsDigitLimit) := by
  have hrest (convention : Decl.CallingConvention) : Ends (do
      return {
        name := escapeReserved o.reserved f.name
        nativeName := f.name
        comment := ← numeric (Decl.locationComment f.location)
        convention
        returnType := .ofDecl o.booleanTypeName f.returnType
        parameters := ← lowerParameters o [] f.parameters : Function })
      (fun _ => True) (FaultIn Fault.IsDigitLimit) := by
    refine (comment_ends f.location).bind fun comment _ => ?_
    exact (lowerParameters_ends o [] f.parameters).bind fun _ _ => Ends.ok trivial
  unfold lowerFunction
  cases f.callingConvention with
  | c => exact hrest .c
  | unknown => exact hrest .unknown
  | other convention => exact Ends.error trivial

theorem lowerFunctionPointer_ends (p : Decl.FunctionPointer) :
    Ends (lowerFunctionPointer o p) (fun _ => True) (FaultIn Fault.IsDigitLimit) :=
  (comment_ends p.location).bind fun _ _ => Ends.ok trivial

theorem singleField_ends (name : String) (location : Option Decl.Location) (fieldName : String)
    (type : Decl.TypeUse) :
    Ends (singleField o name location fieldName type) (fun _ => True)
      (FaultIn Fault.IsDigitLimit) :=
  (comment_ends location).bind fun _ _ => Ends.ok trivial

theorem lowerOpaqueType_ends (t : Decl.OpaqueType) :
    Ends (lowerOpaqueType t) (fun _ => True) (FaultIn Fault.IsDigitLimit) :=
  (comment_ends t.location).bind fun _ _ => Ends.ok trivial

theorem lowerEnumeration_ends (e : Decl.Enumeration) :
    Ends (lowerEnumeration o e) (fun _ => True) (FaultIn Fault.IsDigitLimit) := by
  have hmember (m : Decl.EnumMember) : Ends (lowerEnumMember m) (fun _ => True)
      (FaultIn Fault.IsDigitLimit) :=
    (comment_ends m.location).bind fun _ _ => Ends.ok trivial
  refine (comment_ends e.location).bind fun comment _ => ?_
  exact (Ends.mapM fun m _ => hmember m).bind fun _ _ => Ends.ok trivial

/-! ## Records -/

/-- The fields of a record add up to something, or cannot be added up. -/
theorem coveredBytes_ends (fields : List Decl.Field) :
    Ends (coveredBytes fields) (fun _ => True)
      fun e => e = .tooLargeForDouble ∧ Number.Unsummable (extents fields) := by
  have hfield (f : Decl.Field) (hf : f ∈ fields) :
      Ends (f.type.sizeOf.add f.padding) (Number.AddsUp [f.type.sizeOf, f.padding])
        fun e => e = .tooLargeForDouble ∧ Number.Unsummable (extents fields) := by
    refine (Number.add_ends _ _).failing fun e he => ⟨he.1, ?_⟩
    exact @Number.Unsummable.flatMap _ (fun f : Decl.Field => [f.type.sizeOf, f.padding]) _ _ he.2 hf
  refine (Ends.mapM hfield).bind fun ns hns => ?_
  exact (Number.sum_ends ns).failing fun e he => ⟨he.1, he.2.of_forall₂ hns⟩

theorem checkLayout_ends (r : Decl.Record) :
    Ends (checkLayout r) (fun _ => True) (FaultIn fun fault =>
      fault.IsDigitLimit
        ∨ (fault = .number .tooLargeForDouble ∧ Number.Unsummable (extents r.fields))) := by
  unfold checkLayout
  split
  · exact Ends.ok trivial
  · refine Ends.bind (P := fun _ => True) (Ends.mapError ?_) fun covered _ => ?_
    · refine (coveredBytes_ends r.fields).failing fun e he => .inr ⟨?_, he.2⟩
      rw [he.1]
    · dsimp only
      split
      · refine ((numeric_ends (reasonText_digitLimited _)).failing ?_).bind
          fun _ _ => Ends.error trivial
        exact FaultIn.mono fun _ h => .inl h
      · exact Ends.ok trivial

theorem lowerField_ends (f : Decl.Field) :
    Ends (lowerField o f) (fun _ => True)
      (FaultIn fun fault => fault.IsDigitLimit ∨ Nameless o fault) := by
  have hcomment : Ends (numeric (Decl.locationComment f.location)) (fun _ => True)
      (FaultIn fun fault => fault.IsDigitLimit ∨ Nameless o fault) :=
    (comment_ends f.location).failing (FaultIn.mono fun _ h => .inl h)
  have hwrapped : Ends ((faulty (elementKeyword o.elements
      (TypeUse.ofDecl o.booleanTypeName f.type).name)).map (·.isNone)) (fun _ => True)
      (FaultIn fun fault => fault.IsDigitLimit ∨ Nameless o fault) := by
    refine Ends.bind (P := fun _ => True) (Ends.mapError (elementKeyword_ends o.elements ?_))
      fun _ _ => Ends.ok trivial
    exact (ofDecl_characters o f.type).failing fun _ h => .inr h
  unfold lowerField
  dsimp only
  split
  · exact hwrapped.bind fun _ _ => hcomment.bind fun _ _ => Ends.ok trivial
  · exact hcomment.bind fun _ _ => Ends.ok trivial

/-- The faults of records, and those of the names of their types. -/
def TreeFault (rs : List Decl.Record) (fault : Fault) : Prop :=
  RecordFault o rs fault ∨ Nameless o fault

variable {o} in
theorem TreeFault.mono {rs rs' : List Decl.Record} (hrs : ∀ r ∈ rs, r ∈ rs') (fault : Fault)
    (h : TreeFault o rs fault) : TreeFault o rs' fault :=
  h.imp_left (RecordFault.mono hrs)

mutual

theorem lowerRecord_ends : ∀ r : Decl.Record,
    Ends (lowerRecord o r) (fun _ => True) (FaultIn (TreeFault o (withNested r)))
  | ⟨name, location, type, fields, nested⟩ => by
    unfold lowerRecord withNested
    generalize hr : (⟨name, location, type, fields, nested⟩ : Decl.Record) = r
    have hrest : Ends (do
        return {
          name
          comment := ← numeric (Decl.locationComment location)
          type := .ofDecl o.booleanTypeName type
          fields := ← fields.mapM (lowerField o)
          nested := ← lowerNested o nested : Struct })
        (fun _ => True) (FaultIn (TreeFault o (r :: allNested nested))) := by
      have hcomment := (comment_ends location).failing
        (FaultIn.mono fun _ h => (.inl (.inl h) : TreeFault o (r :: allNested nested) _))
      have hfields := (Ends.mapM fun f (_ : f ∈ fields) => lowerField_ends o f).failing
        (FaultIn.mono fun _ h => (h.imp_left .inl : TreeFault o (r :: allNested nested) _))
      refine hcomment.bind fun comment _ => hfields.bind fun fields _ => ?_
      refine ((lowerNested_ends nested).failing (FaultIn.mono ?_)).bind
        fun _ _ => Ends.ok trivial
      exact TreeFault.mono fun r' hr' => List.mem_cons_of_mem r hr'
    split
    · rename_i hchecked
      refine ((checkLayout_ends r).failing (FaultIn.mono ?_)).bind fun _ _ => hrest
      rintro fault (h | ⟨h, hsum⟩)
      · exact .inl (.inl h)
      · exact .inl (.inr ⟨h, hchecked, r, List.mem_cons_self, hsum⟩)
    · exact hrest

theorem lowerNested_ends : ∀ rs : List Decl.Record,
    Ends (lowerNested o rs) (fun _ => True) (FaultIn (TreeFault o (allNested rs)))
  | [] => Ends.ok trivial
  | r :: rest => by
    unfold lowerNested allNested
    refine ((lowerRecord_ends r).failing (FaultIn.mono ?_)).bind fun _ _ => ?_
    · exact TreeFault.mono fun r' hr' => List.mem_append_left _ hr'
    refine ((lowerNested_ends rest).failing (FaultIn.mono ?_)).bind
      fun _ _ => Ends.ok trivial
    exact TreeFault.mono fun r' hr' => List.mem_append_right _ hr'

end

end Declarations

end Binding

end Interop
