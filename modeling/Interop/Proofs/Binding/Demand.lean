import Interop.Binding.Member

/-!
# What is asked of bindings

A statement about generated text asks something of the strings that show up in it and of the layout
numbers.  A `Demand` says what, one predicate for each place that a string can take; `Meets` says
that a whole tree of bindings meets it, structs at any depth included.  A weaker demand is met by
all that meet a stronger one (`Bindings.Meets.mono`).
-/

set_option autoImplicit false

namespace Interop.Binding

structure Demand where
  /-- The name of a declaration, a parameter or a field. -/
  name : String → Prop
  nativeName : String → Prop
  typeName : String → Prop
  /-- The comment of a top-level declaration or a struct. -/
  comment : String → Prop
  /-- The name of a member of an enumeration, which begins a line. -/
  memberName : String → Prop
  memberValue : Number → Prop
  convention : Decl.CallingConvention → Prop
  /-- A size, an alignment, an offset, a padding or a count. -/
  number : Number → Prop

/-- Whatever meets the one demand meets the other. -/
structure Demand.Implies (d d' : Demand) : Prop where
  name : ∀ s, d.name s → d'.name s
  nativeName : ∀ s, d.nativeName s → d'.nativeName s
  typeName : ∀ s, d.typeName s → d'.typeName s
  comment : ∀ s, d.comment s → d'.comment s
  memberName : ∀ s, d.memberName s → d'.memberName s
  memberValue : ∀ n, d.memberValue n → d'.memberValue n
  convention : ∀ x, d.convention x → d'.convention x
  number : ∀ n, d.number n → d'.number n

variable {d d' : Demand}

/-- The name of the type is a text that meets the demand. -/
structure TypeUse.Meets (d : Demand) (t : TypeUse) : Prop where
  name : ∃ s, t.name = .text s ∧ d.typeName s
  sizeOf : d.number t.sizeOf
  alignOf : d.number t.alignOf
  count : ∀ n, t.count = some n → d.number n

structure Parameter.Meets (d : Demand) (p : Parameter) : Prop where
  name : d.name p.name
  type : p.type.Meets d

structure Function.Meets (d : Demand) (f : Function) : Prop where
  name : d.name f.name
  nativeName : d.nativeName f.nativeName
  comment : d.comment f.comment
  convention : d.convention f.convention
  returnType : f.returnType.Meets d
  parameters : ∀ p ∈ f.parameters, p.Meets d

structure FunctionPointer.Meets (d : Demand) (p : FunctionPointer) : Prop where
  name : d.name p.name
  comment : d.comment p.comment
  type : p.type.Meets d

structure Field.Meets (d : Demand) (f : Field) : Prop where
  name : d.name f.name
  nativeName : d.nativeName f.nativeName
  type : f.type.Meets d
  offset : d.number f.offset
  padding : d.number f.padding

inductive Struct.Meets (d : Demand) : Struct → Prop
  | mk {name comment : String} {type : TypeUse} {fields : List Field} {nested : List Struct}
      (name_meets : d.name name) (comment_meets : d.comment comment) (type_meets : type.Meets d)
      (fields_meet : ∀ f ∈ fields, f.Meets d) (nested_meet : ∀ s ∈ nested, Struct.Meets d s) :
      Struct.Meets d ⟨name, comment, type, fields, nested⟩

theorem Struct.Meets.fields {d : Demand} {s : Struct} (h : s.Meets d) : ∀ f ∈ s.fields, f.Meets d := by
  cases h with
  | mk _ _ _ hfields _ => exact hfields

theorem Struct.Meets.nested {d : Demand} {s : Struct} (h : s.Meets d) : ∀ n ∈ s.nested, n.Meets d := by
  cases h with
  | mk _ _ _ _ hnested => exact hnested

structure OpaqueStruct.Meets (d : Demand) (s : OpaqueStruct) : Prop where
  name : d.name s.name
  comment : d.comment s.comment

structure Enumeration.Meets (d : Demand) (e : Enumeration) : Prop where
  name : d.name e.name
  comment : d.comment e.comment
  integerType : e.integerType.Meets d
  members : ∀ m ∈ e.members, d.memberName m.name ∧ d.memberValue m.value

structure Bindings.Meets (d : Demand) (b : Bindings) : Prop where
  functions : ∀ f ∈ b.functions, f.Meets d
  functionPointers : ∀ p ∈ b.functionPointers, p.Meets d
  structs : ∀ s ∈ b.structs, s.Meets d
  opaqueStructs : ∀ s ∈ b.opaqueStructs, s.Meets d
  enumerations : ∀ e ∈ b.enumerations, e.Meets d

def Member.Meets (d : Demand) : Member → Prop
  | function f => f.Meets d
  | functionPointer p => p.Meets d
  | struct s => s.Meets d
  | opaqueStruct s => s.Meets d
  | enumeration e => e.Meets d

theorem Bindings.Meets.member {b : Bindings} (h : b.Meets d) {m : Member} (hm : m ∈ b.members) :
    m.Meets d := by
  simp only [members, List.mem_append, List.mem_map] at hm
  rcases hm with (((⟨f, hf, rfl⟩ | ⟨p, hp, rfl⟩) | ⟨s, hs, rfl⟩) | ⟨s, hs, rfl⟩) | ⟨e, he, rfl⟩
  · exact h.functions f hf
  · exact h.functionPointers p hp
  · exact h.structs s hs
  · exact h.opaqueStructs s hs
  · exact h.enumerations e he

/-! ## Weaker demands -/

theorem TypeUse.Meets.mono {t : TypeUse} (h : t.Meets d) (i : d.Implies d') : t.Meets d' where
  name := let ⟨s, hs, hd⟩ := h.name; ⟨s, hs, i.typeName s hd⟩
  sizeOf := i.number _ h.sizeOf
  alignOf := i.number _ h.alignOf
  count n hn := i.number _ (h.count n hn)

theorem Field.Meets.mono {f : Field} (h : f.Meets d) (i : d.Implies d') : f.Meets d' where
  name := i.name _ h.name
  nativeName := i.nativeName _ h.nativeName
  type := h.type.mono i
  offset := i.number _ h.offset
  padding := i.number _ h.padding

theorem Struct.Meets.mono {s : Struct} (h : s.Meets d) (i : d.Implies d') : s.Meets d' := by
  induction h with
  | mk hn hc ht hf _ ih =>
    exact .mk (i.name _ hn) (i.comment _ hc) (ht.mono i) (fun f hm => (hf f hm).mono i) ih

theorem Parameter.Meets.mono {p : Parameter} (h : p.Meets d) (i : d.Implies d') : p.Meets d' where
  name := i.name _ h.name
  type := h.type.mono i

theorem Function.Meets.mono {f : Function} (h : f.Meets d) (i : d.Implies d') : f.Meets d' where
  name := i.name _ h.name
  nativeName := i.nativeName _ h.nativeName
  comment := i.comment _ h.comment
  convention := i.convention _ h.convention
  returnType := h.returnType.mono i
  parameters p hp := (h.parameters p hp).mono i

theorem FunctionPointer.Meets.mono {p : FunctionPointer} (h : p.Meets d) (i : d.Implies d') :
    p.Meets d' where
  name := i.name _ h.name
  comment := i.comment _ h.comment
  type := h.type.mono i

theorem OpaqueStruct.Meets.mono {s : OpaqueStruct} (h : s.Meets d) (i : d.Implies d') :
    s.Meets d' where
  name := i.name _ h.name
  comment := i.comment _ h.comment

theorem Enumeration.Meets.mono {e : Enumeration} (h : e.Meets d) (i : d.Implies d') :
    e.Meets d' where
  name := i.name _ h.name
  comment := i.comment _ h.comment
  integerType := h.integerType.mono i
  members m hm := ⟨i.memberName _ (h.members m hm).1, i.memberValue _ (h.members m hm).2⟩

theorem Bindings.Meets.mono {b : Bindings} (h : b.Meets d) (i : d.Implies d') : b.Meets d' where
  functions f hf := (h.functions f hf).mono i
  functionPointers p hp := (h.functionPointers p hp).mono i
  structs s hs := (h.structs s hs).mono i
  opaqueStructs s hs := (h.opaqueStructs s hs).mono i
  enumerations e he := (h.enumerations e he).mono i

end Interop.Binding
