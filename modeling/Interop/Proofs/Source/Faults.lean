import Interop.Proofs.Binding.Types
import Interop.Proofs.Value.Text
import Interop.Source.Unit

/-!
# Faults of emission

Emission writes numbers, spells types, and lays out the elements of arrays that cannot be declared in
place.  The first fails for integers with too many digits, the second for names that are no texts;
the third for a count that is a double, and where a double meets an integer too large for one
(`ArrayFault`).  With calling conventions that are known nothing else goes wrong (`emit_ends`).
-/

set_option autoImplicit false

namespace Interop.Source

open Binding (ElementTable Field TypeUse Struct Bindings)

/-- The error is a fault of some sort. -/
inductive EmissionError.FaultIn (F : Fault → Prop) : EmissionError → Prop
  | fault {f : Fault} (h : F f) : FaultIn F (.fault f)

open EmissionError (FaultIn)

/-- What goes wrong when the elements of an array are laid out one by one. -/
inductive ArrayFault (size : Number) (count : Option Number) : Fault → Prop
  | notACount {x : Binary64} (count_eq : count = some (.double x)) (nonzero : x.isZero = false) :
      ArrayFault size count (.notACount "float")
  | tooLarge {n : Number} (count_eq : count = some n) (mixed : Number.Unsummable [size, n]) :
      ArrayFault size count (.number .tooLargeForDouble)

/-- The faults of a type: those of its digits, and those of its elements. -/
def TypeFault (t : TypeUse) (fault : Fault) : Prop :=
  fault.IsDigitLimit ∨ ArrayFault t.sizeOf t.count fault

/-- The name of a type is a text, or that it is none is a fault of some sort. -/
def Named (F : Fault → Prop) (t : TypeUse) : Prop :=
  Ends (t.name.characters "strip") (fun _ => True) F

variable {α β : Type} {P : α → Prop} {F : Fault → Prop}

theorem faulty_ends {x : Except Fault α} (h : Ends x P F) :
    Ends (faulty x) P (FaultIn F) :=
  Ends.mapError (h.failing fun _ hf => .fault hf)

/-! ## Parts of a declaration -/

theorem declaration_named {type : Value} (h : Ends (type.characters "strip") (fun _ => True) F)
    (name : String) : Ends (faulty (declaration type name)) (fun _ => True) (FaultIn F) :=
  faulty_ends (h.bind fun _ _ => Ends.ok trivial)

theorem needsWrapper_ends (elements : ElementTable) {f : Field} (h : Named F f.type) :
    Ends (faulty (needsWrapper elements f)) (fun _ => True) (FaultIn F) := by
  refine faulty_ends ?_
  unfold needsWrapper
  split
  · exact Ends.ok trivial
  · split
    · exact (Binding.elementKeyword_ends elements h).bind fun _ _ => Ends.ok trivial
    · exact Ends.ok trivial

section Digits

variable (hF : ∀ fault, fault.IsDigitLimit → F fault)

include hF

theorem numberText_digits (n : Number) :
    Ends (numberText n) (fun _ => True) (FaultIn F) :=
  Ends.mapError ((Binding.text_digitLimited n).failing fun _ he => .fault (hF _ he))

theorem placement_digits (offset size padding : Number) :
    Ends (faulty ((offsetAttribute offset size padding).mapError .number)) (fun _ => True)
      (FaultIn F) := by
  refine faulty_ends (Ends.mapError (Ends.failing ?_ fun _ he => hF _ he))
  refine (Binding.text_digitLimited offset).bind fun _ _ => ?_
  refine (Binding.text_digitLimited size).bind fun _ _ => ?_
  exact (Binding.text_digitLimited padding).bind fun _ _ => Ends.ok trivial

theorem structText_ends (name comment : String) (type : TypeUse) (members : List (List Char)) :
    Ends (structText name comment type members) (fun _ => True) (FaultIn F) := by
  refine (numberText_digits hF type.sizeOf).bind fun _ _ => ?_
  exact (numberText_digits hF type.alignOf).bind fun _ _ => Ends.ok trivial

theorem fieldText_ends (elements : ElementTable) {f : Field} (h : Named F f.type) :
    Ends (fieldText elements f) (fun _ => True) (FaultIn F) := by
  have hdeclaration : Ends (fieldDeclaration elements f) (fun _ => True) (FaultIn F) := by
    refine (needsWrapper_ends elements h).bind fun needed _ => ?_
    split
    · have hwrapper : Ends ((Value.text (wrapperName f)).characters "strip") (fun _ => True) F :=
        Ends.ok trivial
      exact declaration_named hwrapper f.name
    · cases hcount : f.type.count with
      | none => exact declaration_named h f.name
      | some n =>
        refine (faulty_ends (Binding.elementKeyword_ends elements h)).bind fun _ _ => ?_
        exact (numberText_digits hF n).bind fun _ _ => Ends.ok trivial
  refine hdeclaration.bind fun _ _ => ?_
  exact (placement_digits hF _ _ _).bind fun _ _ => Ends.ok trivial

end Digits

/-! ## Arrays -/

/-- The count of the elements is an integer, and if their size is a double, then so is that of the
array. -/
structure Laid (t : TypeUse) (layout : Nat × Number) : Prop where
  count : 0 < layout.1 → ∃ n : Int, t.count = some (.int n) ∧ layout.1 = n.toNat
  double : layout.2.IsDouble → t.sizeOf.IsDouble

theorem elementLayout_ends (t : TypeUse) :
    Ends (elementLayout t) (Laid t) (ArrayFault t.sizeOf t.count) := by
  have hnone : Laid t (0, 0) := ⟨fun h => absurd h (by simp), fun h => h.elim⟩
  cases hcount : t.count with
  | none =>
    unfold elementLayout
    rw [hcount]
    exact Ends.ok hnone
  | some n =>
    cases hzero : n.isZero with
    | true =>
      have hlayout : elementLayout t = .ok (0, 0) := by
        unfold elementLayout
        rw [hcount]
        simp only [hzero, if_true]
        rfl
      rw [hlayout]
      exact Ends.ok hnone
    | false =>
      unfold elementLayout
      rw [hcount]
      simp only [hzero, Bool.false_eq_true, if_false]
      refine (Ends.mapError ((Number.lift_ends _ _ t.sizeOf n).failing fun e he => ?_)).bind
        fun size hsize => ?_
      · obtain ⟨rfl, hmixed⟩ := he
        exact .tooLarge rfl hmixed
      -- Only an integer counts; the size of an element is a double only if that of the array is.
      · cases n with
        | double x => exact Ends.error (.notACount rfl hzero)
        | int n =>
          refine Ends.ok ⟨fun _ => ⟨n, hcount, rfl⟩, fun hdouble => ?_⟩
          obtain ⟨m, hm, hm'⟩ := hsize hdouble
          rcases List.mem_cons.mp hm with rfl | hm
          · exact hm'
          · obtain rfl := List.mem_singleton.mp hm
            exact hm'.elim

/-- Placing an element goes wrong only where the count is too large for a double. -/
theorem slot_ends {t : TypeUse} {count : Nat} {size : Number} (h : Laid t (count, size))
    {index : Nat} (hindex : index < count) :
    Ends (slot t size index) (fun f => f.type.name = t.name) (ArrayFault t.sizeOf t.count) := by
  unfold slot
  refine (Ends.mapError ((Number.lift_ends _ _ (.int index) size).failing fun e he => ?_)).bind
    fun offset _ => Ends.ok rfl
  obtain ⟨rfl, hmixed⟩ := he
  obtain ⟨n, hcount, hn⟩ := h.count (Nat.zero_lt_of_lt hindex)
  have hdouble : t.sizeOf.IsDouble := by
    obtain ⟨m, hm, hm'⟩ := hmixed.double
    rcases List.mem_cons.mp hm with rfl | hm
    · exact hm'.elim
    · obtain rfl := List.mem_singleton.mp hm
      exact h.double hm'
  refine .tooLarge hcount ⟨⟨_, List.mem_cons_self, hdouble⟩, ?_⟩
  -- The index is as large as a double can be, and the count is larger.
  have hlarge := hmixed.large
  have hsize : size.magnitude = 0 := by
    obtain ⟨m, hm, hm'⟩ := hmixed.double
    rcases List.mem_cons.mp hm with rfl | hm
    · exact hm'.elim
    · obtain rfl := List.mem_singleton.mp hm
      cases m with
      | int _ => exact hm'.elim
      | double _ => rfl
  simp only [List.map_cons, List.map_nil, List.sum_cons, List.sum_nil, hsize] at hlarge ⊢
  simp only [Number.magnitude] at hlarge ⊢
  omega

theorem wrapperText_ends (elements : ElementTable) {f : Field} (h : Named F f.type)
    (hfault : ∀ fault, TypeFault f.type fault → F fault) :
    Ends (wrapperText elements f) (fun _ => True) (FaultIn F) := by
  have hF (fault : Fault) (hlimit : fault.IsDigitLimit) : F fault := hfault fault (.inl hlimit)
  have harray {α : Type} {P : α → Prop} {x : Except Fault α}
      (hx : Ends x P (ArrayFault f.type.sizeOf f.type.count)) : Ends (faulty x) P (FaultIn F) :=
    faulty_ends (hx.failing fun fault harray => hfault fault (.inr harray))
  refine (harray (elementLayout_ends f.type)).bind fun layout hlayout => ?_
  obtain ⟨count, size⟩ := layout
  have hslot (index : Nat) (hindex : index ∈ List.range count) :
      Ends (do fieldText elements (← faulty (slot f.type size index))) (fun _ => True)
        (FaultIn F) := by
    refine (harray (slot_ends hlayout (List.mem_range.mp hindex))).bind fun field hfield => ?_
    refine fieldText_ends hF elements ?_
    rw [Named, hfield]
    exact h
  refine (Ends.mapM hslot).bind fun members _ => ?_
  exact structText_ends hF _ _ _ _

theorem wrapperTexts_ends (elements : ElementTable) {fields : List Field}
    (h : ∀ f ∈ fields, Named F f.type ∧ ∀ fault, TypeFault f.type fault → F fault) :
    Ends (wrapperTexts elements fields) (fun _ => True) (FaultIn F) := by
  induction fields with
  | nil => exact Ends.ok trivial
  | cons f fields ih =>
    obtain ⟨⟨hnamed, hfault⟩, hrest⟩ := List.forall_mem_cons.mp h
    unfold wrapperTexts
    -- A field that can be declared in place adds no text and no fault.
    refine (needsWrapper_ends elements hnamed).bind fun needed _ => ?_
    split
    · refine (wrapperText_ends elements hnamed hfault).bind fun _ _ => ?_
      exact (ih hrest).bind fun _ _ => Ends.ok trivial
    · exact ih hrest

/-! ## Structs -/

mutual

theorem Struct.text_ends (elements : ElementTable)
    (hF : ∀ fault, fault.IsDigitLimit → F fault) : ∀ s : Struct,
      s.Fields (fun f => Named F f.type ∧ ∀ fault, TypeFault f.type fault → F fault) →
      Ends (Struct.text elements s) (fun _ => True) (FaultIn F)
  | ⟨name, comment, type, fields, nested⟩, h => by
    obtain ⟨hfields, hnested⟩ := h
    unfold Struct.text
    have hfield (f : Field) (hf : f ∈ fields) :
        Ends (fieldText elements f) (fun _ => True) (FaultIn F) :=
      fieldText_ends hF elements (hfields f hf).1
    refine (Ends.mapM hfield).bind fun _ _ => ?_
    refine (wrapperTexts_ends elements hfields).bind fun _ _ => ?_
    refine (nestedTexts_ends elements hF nested hnested).bind fun _ _ => ?_
    exact structText_ends hF _ _ _ _

theorem nestedTexts_ends (elements : ElementTable)
    (hF : ∀ fault, fault.IsDigitLimit → F fault) : ∀ ss : List Struct,
      (∀ s ∈ ss, s.Fields fun f => Named F f.type ∧ ∀ fault, TypeFault f.type fault → F fault) →
      Ends (nestedTexts elements ss) (fun _ => True) (FaultIn F)
  | [], _ => Ends.ok trivial
  | s :: rest, h => by
    obtain ⟨hs, hrest⟩ := List.forall_mem_cons.mp h
    unfold nestedTexts
    refine (Struct.text_ends elements hF s hs).bind fun _ _ => ?_
    exact (nestedTexts_ends elements hF rest hrest).bind fun _ _ => Ends.ok trivial

end

/-! ## Files -/

theorem functionText_ends {f : Binding.Function} (h : f.Typed (Named F)) :
    Ends (functionText f) (fun _ => True) (FaultIn F) := by
  have hconvention : Ends (conventionName f.convention) (fun _ => True) (FaultIn F) := by
    cases hc : f.convention with
    | other name => exact absurd hc (h.convention name)
    | _ => exact Ends.ok trivial
  have hparameter (p : Binding.Parameter) (hp : p ∈ f.parameters) :
      Ends (parameterText p) (fun _ => True) (FaultIn F) :=
    (declaration_named (h.parameters p hp) p.name).bind fun _ _ => Ends.ok trivial
  refine hconvention.bind fun _ _ => ?_
  refine (declaration_named h.returnType f.name).bind fun _ _ => ?_
  exact (Ends.mapM hparameter).bind fun _ _ => Ends.ok trivial

theorem enumText_ends (hF : ∀ fault, fault.IsDigitLimit → F fault) (e : Binding.Enumeration) :
    Ends (enumText e) (fun _ => True) (FaultIn F) := by
  have hmember (m : Binding.EnumMember) (_ : m ∈ e.members) :
      Ends (enumMemberText m) (fun _ => True) (FaultIn F) :=
    (numberText_digits hF m.value).bind fun _ _ => Ends.ok trivial
  refine (faulty_ends ((Value.shown_ends e.integerType.name).failing hF)).bind fun _ _ => ?_
  exact (Ends.mapM hmember).bind fun _ _ => Ends.ok trivial

/-- The faults of bindings: those of their digits, of the names of types, and of the types of their
fields. -/
theorem emit_ends {p : Profile} {b : Bindings} (hF : ∀ fault, fault.IsDigitLimit → F fault)
    (hb : b.Typed (Named F) fun f =>
      Named F f.type ∧ ∀ fault, TypeFault f.type fault → F fault) :
    Ends (emit p b) (fun _ => True) (FaultIn F) := by
  have hshown (v : Value) : Ends (faulty v.shown) (fun _ => True) (FaultIn F) :=
    faulty_ends ((Value.shown_ends v).failing hF)
  have hpointer (q : Binding.FunctionPointer) (hq : q ∈ b.functionPointers) :
      Ends (functionPointerText p.elements q) (fun _ => True) (FaultIn F) := by
    refine Ends.bind (fieldText_ends hF p.elements ?_) fun _ _ => structText_ends hF _ _ _ _
    exact hb.functionPointers q hq
  have hmembers : Ends (memberTexts p.elements b) (fun _ => True) (FaultIn F) := by
    refine (Ends.mapM fun f hf => functionText_ends (hb.functions f hf)).bind fun _ _ => ?_
    refine (Ends.mapM hpointer).bind fun _ _ => ?_
    refine (nestedTexts_ends p.elements hF b.structs hb.structs).bind fun _ _ => ?_
    refine (Ends.mapM fun e _ => enumText_ends hF e).bind fun _ _ => Ends.ok trivial
  have hclass (members : List (List Char)) :
      Ends (classText p members) (fun _ => True) (FaultIn F) :=
    (hshown _).bind fun _ _ => (hshown _).bind fun _ _ => Ends.ok trivial
  have husing (v : Value) (_ : v ∈ p.usings) : Ends (usingLine v) (fun _ => True) (FaultIn F) :=
    (hshown v).bind fun _ _ => Ends.ok trivial
  have hfile (text : List Char) : Ends (fileText p text) (fun _ => True) (FaultIn F) := by
    refine (hshown _).bind fun _ _ => (Ends.mapM husing).bind fun _ _ => ?_
    split
    · exact (hshown _).bind fun _ _ => Ends.ok trivial
    · exact Ends.ok trivial
  refine hmembers.bind fun members _ => ?_
  refine (hclass members).bind fun text _ => ?_
  exact (hfile text).bind fun _ _ => Ends.ok trivial

end Interop.Source
