import Interop.Proofs.Binding.Records

/-!
# Types of bindings

Lowering passes a type on as it is, but for the name of the boolean type.  So what holds of every type
that is passed on holds of the types of functions and of function pointers, and the type of a field
is the one of a field, an alias or an opaque pointer of the header (`lower_typed`).
-/

set_option autoImplicit false

namespace Interop.Binding

/-- All fields of a struct satisfy a predicate, at any depth. -/
inductive Struct.Fields (P : Field → Prop) : Struct → Prop
  | mk {name comment : String} {type : TypeUse} {fields : List Field} {nested : List Struct}
      (fields_hold : ∀ f ∈ fields, P f) (nested_hold : ∀ s ∈ nested, Struct.Fields P s) :
      Struct.Fields P ⟨name, comment, type, fields, nested⟩

theorem Struct.Fields.mono {P P' : Field → Prop} (hP : ∀ f, P f → P' f) {s : Struct}
    (h : s.Fields P) : s.Fields P' := by
  induction h with
  | mk hfields _ ih => exact .mk (fun f hf => hP f (hfields f hf)) ih

/-- The convention of a function is known, and its types satisfy a predicate. -/
structure Function.Typed (N : TypeUse → Prop) (f : Function) : Prop where
  convention : ∀ name, f.convention ≠ .other name
  returnType : N f.returnType
  parameters : ∀ p ∈ f.parameters, N p.type

/-- The types of functions and of function pointers satisfy a predicate, and so do the fields of
structs. -/
structure Bindings.Typed (N : TypeUse → Prop) (P : Field → Prop) (b : Bindings) : Prop where
  functions : ∀ f ∈ b.functions, f.Typed N
  functionPointers : ∀ p ∈ b.functionPointers, N p.type
  structs : ∀ s ∈ b.structs, s.Fields P

theorem Bindings.Typed.mono {N : TypeUse → Prop} {P P' : Field → Prop} (hP : ∀ f, P f → P' f)
    {b : Bindings} (h : b.Typed N P) : b.Typed N P' :=
  { h with structs := fun s hs => (h.structs s hs).mono hP }

/-- The type of a field is one of these. -/
def TypeFrom (o : Options) (types : List Decl.TypeUse) (f : Field) : Prop :=
  ∃ t ∈ types, f.type = .ofDecl o.booleanTypeName t

theorem TypeFrom.mono {o : Options} {types types' : List Decl.TypeUse}
    (htypes : ∀ t ∈ types, t ∈ types') {f : Field} (h : TypeFrom o types f) :
    TypeFrom o types' f := by
  obtain ⟨t, ht, htype⟩ := h
  exact ⟨t, htypes t ht, htype⟩

/-! ## Declarations -/

section Lowering

variable {o : Options} {N : TypeUse → Prop}
  (hN : ∀ t : Decl.TypeUse, N (.ofDecl o.booleanTypeName t))

include hN

theorem lowerParameters_typed (taken : List String) (ps : List Decl.Parameter) :
    Ends (lowerParameters o taken ps) (fun lowered => ∀ p ∈ lowered, N p.type)
      fun _ => True := by
  induction ps generalizing taken with
  | nil => exact Ends.ok fun _ hp => nomatch hp
  | cons p ps ih =>
    unfold lowerParameters
    refine (Ends.any _).bind fun _ _ => ?_
    refine (Ends.any _).bind fun _ _ => ?_
    refine (ih _).bind fun rest hrest => Ends.ok ?_
    exact List.forall_mem_cons.mpr ⟨hN p.type, hrest⟩

theorem lowerFunction_typed (f : Decl.Function) :
    Ends (lowerFunction o f) (Function.Typed N) fun _ => True := by
  unfold lowerFunction
  cases hconvention : f.callingConvention with
  | other convention => exact Ends.error trivial
  | _ =>
    refine (Ends.any _).bind fun _ _ => ?_
    refine (lowerParameters_typed hN [] f.parameters).bind fun parameters hparameters => ?_
    refine Ends.ok ⟨fun name h => ?_, hN f.returnType, hparameters⟩
    cases h

theorem lowerFunctionPointer_typed (p : Decl.FunctionPointer) :
    Ends (lowerFunctionPointer o p) (fun q => N q.type) fun _ => True := by
  refine (Ends.any _).bind fun _ _ => ?_
  exact Ends.ok (hN p.type)

end Lowering

section Fields

variable {o : Options}

theorem singleField_typed (structName : String) (location : Option Decl.Location)
    (fieldName : String) (type : Decl.TypeUse) :
    Ends (singleField o structName location fieldName type) (·.Fields (TypeFrom o [type]))
      fun _ => True := by
  refine (Ends.any _).bind fun _ _ => ?_
  refine Ends.ok (.mk (fun f hf => ?_) fun _ hs => nomatch hs)
  obtain rfl := List.mem_singleton.mp hf
  exact ⟨type, List.mem_singleton_self type, rfl⟩

theorem lowerField_typed (f : Decl.Field) :
    Ends (lowerField o f) (TypeFrom o [f.type]) fun _ => True := by
  unfold lowerField
  dsimp only
  split
  · refine (Ends.any _).bind fun _ _ => (Ends.any _).bind fun _ _ => Ends.ok ?_
    exact ⟨f.type, List.mem_singleton_self f.type, rfl⟩
  · refine (Ends.any _).bind fun _ _ => (Ends.any _).bind fun _ _ => Ends.ok ?_
    exact ⟨f.type, List.mem_singleton_self f.type, rfl⟩

end Fields

/-! ## Records -/

/-- The types of the fields of records. -/
def recordTypes (rs : List Decl.Record) : List Decl.TypeUse :=
  rs.flatMap fun r => r.fields.map (·.type)

theorem recordTypes_mono {rs rs' : List Decl.Record} (h : ∀ r ∈ rs, r ∈ rs') :
    ∀ t ∈ recordTypes rs, t ∈ recordTypes rs' := by
  intro t ht
  obtain ⟨r, hr, hfield⟩ := List.mem_flatMap.mp ht
  exact List.mem_flatMap.mpr ⟨r, h r hr, hfield⟩

theorem lowerRecord_typed {o : Options} (r : Decl.Record) :
    Ends (lowerRecord o r) (·.Fields (TypeFrom o (recordTypes (withNested r)))) fun _ => True := by
  refine lowerRecord_of_nodes (M := fun r s => s.Fields (TypeFrom o (recordTypes (withNested r))))
    ?_ r
  rintro r ⟨_, _, _, fields, nested⟩ - - hfields hnested
  refine .mk (fun f hf => ?_) fun n hn => ?_
  · obtain ⟨c, hc, hlowered⟩ := exists_of_forall₂ hfields hf
    refine ((lowerField_typed c).result hlowered).mono fun t ht => ?_
    obtain rfl := List.mem_singleton.mp ht
    exact List.mem_flatMap.mpr ⟨r, self_mem_withNested r, List.mem_map_of_mem hc⟩
  · obtain ⟨c, hc, hfrom⟩ := exists_of_forall₂ hnested hn
    exact hfrom.mono fun f hf => hf.mono (recordTypes_mono (withNested_of_mem hc))

/-! ## Headers -/

/-- The types that the fields of structs come from. -/
def fieldTypes (h : Decl.Header) : List Decl.TypeUse :=
  recordTypes (allNested h.records) ++ h.aliases.map (·.underlyingType)
    ++ h.opaquePointers.map (·.pointerType)

/-- What is bound is what lowering gives. -/
theorem mem_boundOf {α β : Type} {f : α → Outcome β} {xs : List α} {b : β}
    (h : b ∈ boundOf f xs) : ∃ x ∈ xs, f x = .ok (.ok b) := by
  obtain ⟨x, hx, hb⟩ := List.mem_filterMap.mp h
  refine ⟨x, hx, ?_⟩
  rcases hf : f x with fault | (failure | b')
  · rw [hf] at hb
    cases hb
  · rw [hf] at hb
    cases hb
  · rw [hf] at hb
    cases hb
    rfl

theorem outcome_eq_bound {β : Type} {k : Decl.Kind} {n : String} {l : Option Decl.Location}
    {x : Except LoweringError β} {b : β} (h : outcome k n l x = .ok (.ok b)) : x = .ok b := by
  cases x with
  | ok b' =>
    cases h
    rfl
  | error e => cases e <;> cases h

/-- What holds of the structs of records, aliases and opaque pointers holds of all structs that a
header is lowered to. -/
theorem lowered_structs {o : Options} {h : Decl.Header} {l : Lowered} (hl : lower o h = .ok l)
    {P : Struct → Prop} (hrecord : ∀ r ∈ h.records, Ends (lowerRecord o r) P fun _ => True)
    (halias : ∀ a ∈ h.aliases, Ends (lowerAlias o a) P fun _ => True)
    (hpointer : ∀ p ∈ h.opaquePointers, Ends (lowerOpaquePointer o p) P fun _ => True) :
    ∀ s ∈ l.bindings.structs, P s := by
  obtain ⟨-, rfl⟩ := lower_eq_ok.mp hl
  intro s hs
  rcases List.mem_append.mp hs with hs | hs
  · rcases List.mem_append.mp hs with hs | hs
    · obtain ⟨r, hr, hs'⟩ := mem_boundOf hs
      exact (hrecord r hr).result (outcome_eq_bound hs')
    · obtain ⟨a, ha, hs'⟩ := mem_boundOf hs
      exact (halias a ha).result (outcome_eq_bound hs')
  · obtain ⟨p, hp, hs'⟩ := mem_boundOf hs
    exact (hpointer p hp).result (outcome_eq_bound hs')

theorem lower_typed {o : Options} {N : TypeUse → Prop}
    (hN : ∀ t : Decl.TypeUse, N (.ofDecl o.booleanTypeName t))
    {h : Decl.Header} {l : Lowered} (hl : lower o h = .ok l) :
    l.bindings.Typed N (TypeFrom o (fieldTypes h)) := by
  have hmono {types : List Decl.TypeUse} (htypes : ∀ t ∈ types, t ∈ fieldTypes h) {s : Struct}
      (hs : s.Fields (TypeFrom o types)) : s.Fields (TypeFrom o (fieldTypes h)) :=
    hs.mono fun f hf => hf.mono htypes
  have hstructs : ∀ s ∈ l.bindings.structs, s.Fields (TypeFrom o (fieldTypes h)) := by
    refine lowered_structs hl (fun r hr => ?_) (fun a ha => ?_) fun p hp => ?_
    · refine (lowerRecord_typed r).giving fun s hs => hmono (fun t ht => ?_) hs
      exact List.mem_append_left _
        (List.mem_append_left _ (recordTypes_mono (withNested_subset hr) t ht))
    · refine (singleField_typed _ _ _ _).giving fun s hs => hmono (fun t ht => ?_) hs
      obtain rfl := List.mem_singleton.mp ht
      exact List.mem_append_left _ (List.mem_append_right _ (List.mem_map_of_mem ha))
    · refine (singleField_typed _ _ _ _).giving fun s hs => hmono (fun t ht => ?_) hs
      obtain rfl := List.mem_singleton.mp ht
      exact List.mem_append_right _ (List.mem_map_of_mem hp)
  obtain ⟨-, rfl⟩ := lower_eq_ok.mp hl
  refine ⟨fun f hf => ?_, fun p hp => ?_, hstructs⟩
  · obtain ⟨f', -, hf'⟩ := mem_boundOf hf
    exact (lowerFunction_typed hN f').result (outcome_eq_bound hf')
  · obtain ⟨p', -, hp'⟩ := mem_boundOf hp
    exact (lowerFunctionPointer_typed hN p').result (outcome_eq_bound hp')

end Interop.Binding
