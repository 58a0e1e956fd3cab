import Interop.Proofs.Binding.Mismatch
import Interop.Proofs.Binding.Types
import Interop.Proofs.Decl.Loading

/-!
# Headers that come from documents

A function of a document has one of the two conventions that can be bound, so of the reasons for
which declarations are refused only the layout of records is left: what fails is a record, because
of itself or of one that is nested in it (`Misplaced`).  Where nothing fails, each item of the
document is bound, in the order in which the items stand (`document_lowers`).
-/

set_option autoImplicit false

namespace Interop.Binding

open Decl (Header)
open Decl.Document

/-! ## Refusals -/

/-- A step of lowering has a fault, or is refused in some way. -/
def RefusedAs (P : Refusal → Prop) : LoweringError → Prop
  | .refused refusal => P refusal
  | .fault _ => True

/-- A step of lowering cannot be refused. -/
abbrev Unrefused : LoweringError → Prop := RefusedAs fun _ => False

/-- The fields of a record follow one another, and cover another number of bytes than it has. -/
structure Misfit (r : Decl.Record) (refusal : Refusal) : Prop where
  follow : strictlyIncreasing (r.fields.map (·.offset)) = true
  covers : ∃ covered, coveredBytes r.fields = .ok covered ∧ covered.equal r.type.sizeOf = false
    ∧ refusal = ⟨.layoutMismatch covered r.type.sizeOf, r.name, r.location⟩

/-! ## Steps -/

section Steps

variable (o : Options)

theorem numeric_unrefused {α : Type} (x : Except NumberFault α) :
    Ends (numeric x) (fun _ => True) Unrefused := by
  cases x with
  | ok a => exact Ends.ok trivial
  | error e => exact Ends.error trivial

theorem lowerParameters_unrefused (taken : List String) (ps : List Decl.Parameter) :
    Ends (lowerParameters o taken ps) (fun _ => True) Unrefused := by
  induction ps generalizing taken with
  | nil => exact Ends.ok trivial
  | cons p ps ih =>
    unfold lowerParameters
    refine (numeric_unrefused _).bind fun name _ => ?_
    refine (numeric_unrefused _).bind fun comment _ => ?_
    exact (ih _).bind fun _ _ => Ends.ok trivial

/-- Only the convention of a function can be refused. -/
theorem lowerFunction_unrefused {f : Decl.Function}
    (hf : f.callingConvention = .c ∨ f.callingConvention = .unknown) :
    Ends (lowerFunction o f) (fun _ => True) Unrefused := by
  unfold lowerFunction
  rcases hf with hc | hunknown
  · rw [hc]
    refine (numeric_unrefused _).bind fun comment _ => ?_
    exact (lowerParameters_unrefused o [] f.parameters).bind fun _ _ => Ends.ok trivial
  · rw [hunknown]
    refine (numeric_unrefused _).bind fun comment _ => ?_
    exact (lowerParameters_unrefused o [] f.parameters).bind fun _ _ => Ends.ok trivial

theorem lowerFunctionPointer_unrefused (p : Decl.FunctionPointer) :
    Ends (lowerFunctionPointer o p) (fun _ => True) Unrefused :=
  (numeric_unrefused _).bind fun _ _ => Ends.ok trivial

theorem singleField_unrefused (name : String) (location : Option Decl.Location)
    (fieldName : String) (type : Decl.TypeUse) :
    Ends (singleField o name location fieldName type) (fun _ => True) Unrefused :=
  (numeric_unrefused _).bind fun _ _ => Ends.ok trivial

theorem lowerOpaqueType_unrefused (t : Decl.OpaqueType) :
    Ends (lowerOpaqueType t) (fun _ => True) Unrefused :=
  (numeric_unrefused _).bind fun _ _ => Ends.ok trivial

theorem lowerEnumeration_unrefused (e : Decl.Enumeration) :
    Ends (lowerEnumeration o e) (fun _ => True) Unrefused := by
  have hmember (m : Decl.EnumMember) : Ends (lowerEnumMember m) (fun _ => True) Unrefused :=
    (numeric_unrefused _).bind fun _ _ => Ends.ok trivial
  refine (numeric_unrefused _).bind fun comment _ => ?_
  exact (Ends.mapM fun m _ => hmember m).bind fun _ _ => Ends.ok trivial

/-! ## Records -/

theorem Mismatched.misfit {r : Decl.Record} {covered : Number} (h : Mismatched r covered) :
    Misfit r (mismatch r covered) where
  follow := (strictlyIncreasing_eq_true _).mpr h.follow
  covers := ⟨covered, h.covers, h.differs, rfl⟩

/-- Layouts are checked, and one of the records is refused for its own. -/
structure Misplaced (rs : List Decl.Record) (refusal : Refusal) : Prop where
  checked : o.validateLayout = true
  record : ∃ r ∈ rs, Misfit r refusal

theorem lowerRecord_refused (r : Decl.Record) :
    Ends (lowerRecord o r) (fun _ => True) (RefusedAs (Misplaced o (withNested r))) := by
  refine (lowerRecord_stops r).mono (fun _ _ => trivial) ?_
  rintro (refusal | fault) hstopped
  · obtain ⟨hchecked, before, r', after, covered, htree, -, hr', rfl⟩ := hstopped
    have hmem : r' ∈ withNested r := htree ▸ List.mem_append_right _ List.mem_cons_self
    exact ⟨hchecked, r', hmem, hr'.misfit⟩
  · exact trivial

end Steps

/-! ## Failures -/

theorem outcome_eq_refused {β : Type} {k : Decl.Kind} {n : String} {l : Option Decl.Location}
    {x : Except LoweringError β} {f : Failure} (h : outcome k n l x = .ok (.error f)) :
    x = .error (.refused f.refusal) := by
  obtain ⟨refusal, hx, rfl⟩ := outcome_eq_failed.mp h
  exact hx

/-- A record is refused because of its layout, or of that of a record nested in it. -/
structure LayoutFailure (o : Options) (rs : List Decl.Record) (f : Failure) : Prop where
  kind : f.kind = .record
  record : ∃ r ∈ rs, f.name = r.name ∧ f.location = r.location
    ∧ Misplaced o (withNested r) f.refusal

/-- A declaration of a sound header that is refused is a record. -/
theorem layoutFailure {o : Options} {h : Header} (hsound : h.Sound) :
    ∀ d ∈ declarations h, ∀ f, d.outcome o = .ok (.error f) → LayoutFailure o h.records f := by
  have hnever {β : Type} {k : Decl.Kind} {n : String} {l : Option Decl.Location}
      {x : Except LoweringError β} {g : β → Bound} (hx : Ends x (fun _ => True) Unrefused)
      {f : Failure} (hf : (outcome k n l x).map g = .ok (.error f)) : LayoutFailure o h.records f :=
    (hx.failure (outcome_eq_refused (Outcome.map_eq_failure hf))).elim
  refine forall_declarations.mpr ⟨?_, ?_, ?_, ?_, ?_, ?_, ?_⟩
  · exact fun f hf _ => hnever (lowerFunction_unrefused o (hsound.functions f hf).callingConvention)
  · exact fun p _ _ => hnever (lowerFunctionPointer_unrefused o p)
  · intro r hr f hf
    have hf := Outcome.map_eq_failure hf
    obtain ⟨hkind, hname, hlocation⟩ := Declaration.outcome_eq_failure hf
    have hmisplaced := (lowerRecord_refused o r).failure (outcome_eq_refused hf)
    exact ⟨hkind, r, hr, hname, hlocation, hmisplaced⟩
  · exact fun a _ _ => hnever (singleField_unrefused o a.name a.location "Data" a.underlyingType)
  · exact fun p _ _ => hnever (singleField_unrefused o p.name p.location "Pointer" p.pointerType)
  · exact fun t _ _ => hnever (lowerOpaqueType_unrefused t)
  · exact fun e _ _ => hnever (lowerEnumeration_unrefused o e)

theorem lower_failures {o : Options} {h : Header} {l : Lowered} (hsound : h.Sound)
    (hl : lower o h = .ok l) : ∀ f ∈ l.failures, LayoutFailure o h.records f := by
  obtain ⟨-, rfl⟩ := lower_eq_ok.mp hl
  intro f hf
  obtain ⟨d, hd, hfailure⟩ := List.mem_filterMap.mp hf
  exact layoutFailure hsound d hd f (Outcome.failure?_eq_some.mp hfailure)

/-! ## Documents all of whose items are bound -/

/-- A value describes a declaration, and this is what the declaration is bound to. -/
def BindsTo {δ β : Type} (describes : Value → δ → Prop) (lowering : δ → Except LoweringError β)
    (v : Value) (b : β) : Prop := ∃ d, describes v d ∧ lowering d = .ok b

/-- Each item of a document is bound to a declaration of its own, one after the other.  The structs
are those of the records, then of the aliases and then of the opaque pointers. -/
structure OneEach (o : Options) (v : Value) (b : Bindings) : Prop where
  functions : Parts (BindsTo IsFunction (lowerFunction o)) "function_externs" v b.functions
  functionPointers : Parts (BindsTo IsFunctionPointer (lowerFunctionPointer o))
    "function_pointers" v b.functionPointers
  structs : ∃ records aliases pointers, b.structs = records ++ aliases ++ pointers
    ∧ Parts (BindsTo IsRecord (lowerRecord o)) "records" v records
    ∧ Parts (BindsTo IsAlias (lowerAlias o)) "alias_types" v aliases
    ∧ Parts (BindsTo IsOpaquePointer (lowerOpaquePointer o)) "opaque_pointers" v pointers
  opaqueStructs : Parts (BindsTo IsOpaqueType lowerOpaqueType) "opaque_data_types" v b.opaqueStructs
  enumerations : Parts (BindsTo IsEnumeration (lowerEnumeration o)) "enums" v b.enumerations

/-- The items of a section are bound if none of the declarations they describe is refused. -/
theorem parts_boundOf {δ β : Type} {describes : Value → δ → Prop} {key : String} {v : Value}
    {lowering : δ → Except LoweringError β} {k : Decl.Kind} {name : δ → String}
    {location : δ → Option Decl.Location} {xs : List δ} (hxs : Parts describes key v xs)
    (hreturns : ∀ x ∈ xs, (outcome k (name x) (location x) (lowering x)).Returns)
    (hnone : ∀ x ∈ xs, (outcome k (name x) (location x) (lowering x)).failure? = none) :
    Parts (BindsTo describes lowering) key v
      (boundOf (fun x => outcome k (name x) (location x) (lowering x)) xs) := by
  obtain ⟨items, hitems, hpairs⟩ := hxs
  refine ⟨items, hitems, ?_⟩
  clear hitems
  -- The induction is on the items next to the declarations that they describe.
  induction hpairs with
  | nil => exact .nil
  | @cons w x ws xs hx _ ih =>
    obtain ⟨⟨r, hr⟩, hreturns⟩ := List.forall_mem_cons.mp hreturns
    obtain ⟨hnone, hnones⟩ := List.forall_mem_cons.mp hnone
    cases r with
    | error f => simp [hr, Outcome.failure?] at hnone
    | ok b =>
      unfold boundOf
      rw [List.filterMap_cons_some (b := b) (by simp only [hr, Outcome.bound?])]
      exact .cons ⟨x, hx, outcome_eq_bound hr⟩ (ih hreturns hnones)

theorem lower_oneEach {o : Options} {v : Value} {h : Header} {l : Lowered} (hh : IsHeader v h)
    (hl : lower o h = .ok l) (hnone : l.failures = []) : OneEach o v l.bindings := by
  obtain ⟨hall, rfl⟩ := lower_eq_ok.mp hl
  have hnone := forall_declarations.mp (List.filterMap_eq_nil_iff.mp hnone)
  have hall := forall_declarations.mp hall
  simp only [Declaration.outcome, Outcome.returns_map, Outcome.failure?_map] at hall hnone
  obtain ⟨r₁, r₂, r₃, r₄, r₅, r₆, r₇⟩ := hall
  obtain ⟨n₁, n₂, n₃, n₄, n₅, n₆, n₇⟩ := hnone
  constructor
  case functions => exact parts_boundOf hh.functions r₁ n₁
  case functionPointers => exact parts_boundOf hh.functionPointers r₂ n₂
  case structs =>
    exact ⟨_, _, _, rfl, parts_boundOf hh.records r₃ n₃, parts_boundOf hh.aliases r₄ n₄,
      parts_boundOf hh.opaquePointers r₅ n₅⟩
  case opaqueStructs => exact parts_boundOf hh.opaqueTypes r₆ n₆
  case enumerations => exact parts_boundOf hh.enumerations r₇ n₇

/-- What fails in a header that comes from a document is a record, for a layout, and nothing fails
if layouts are not checked.  If nothing fails, each item of the document is bound. -/
theorem document_lowers {o : Options} {v : Value} {h : Header} {l : Lowered}
    (hload : Header.ofValue v = .ok h) (hl : lower o h = .ok l) :
    (∀ f ∈ l.failures, LayoutFailure o h.records f)
      ∧ (o.validateLayout = false → l.failures = [])
      ∧ (l.failures = [] → OneEach o v l.bindings) := by
  obtain ⟨hcheck, hh⟩ := Decl.ofValue_eq_ok.mp hload
  have hsound : h.Sound := Decl.header_sound (Schema.check_eq_none.mp hcheck) hh
  have hfailures := lower_failures hsound hl
  refine ⟨hfailures, fun hunchecked => ?_, lower_oneEach hh hl⟩
  refine List.eq_nil_iff_forall_not_mem.mpr fun f hf => ?_
  obtain ⟨r, -, -, -, hmisplaced⟩ := (hfailures f hf).record
  rw [hmisplaced.checked] at hunchecked
  cases hunchecked

/-- A document with a function of unknown convention, an alias, and a record in which the nested one
has a field of four bytes with two of padding, and is nine bytes long. -/
def misfitDocument : Value :=
  let place : Value :=
    .table [("kind", .text "struct"), ("file_name", .text "a.h"), ("line", .int 1)]
  let type (name : String) (size : Int) : Value :=
    .table [("name", .text name), ("size_of", .int size), ("align_of", .int 4)]
  let field : Value :=
    .table [("name", .text "x"), ("location", place), ("type", type "int" 4), ("offset", .int 0),
      ("padding", .int 2)]
  let inner : Value :=
    .table [("name", .text "Inner"), ("location", place), ("type", type "Inner" 9),
      ("fields", .list [field])]
  .table [
    ("function_externs", .list [.table [("name", .text "draw"), ("location", place),
      ("calling_convention", .text "Unknown"), ("return_type", type "void" 0)]]),
    ("records", .list [.table [("name", .text "Outer"), ("location", place),
      ("type", type "Outer" 9), ("nested_records", .list [inner])]]),
    ("alias_types", .list [.table [("name", .text "Id"), ("location", place),
      ("underlying_type", type "int" 4)]])]

theorem document_lowers_misfit :
    ∃ h, Header.ofValue misfitDocument = .ok h
      ∧ (∃ l, lower checkedOptions h = .ok l
        ∧ l.failures.map (fun f => (f.name, f.refusal.name)) = [("Outer", "Inner")]
        ∧ ∀ f ∈ l.failures, LayoutFailure checkedOptions h.records f)
      ∧ ∃ l, lower Options.default h = .ok l ∧ l.bindings.names = ["draw", "Outer", "Id"]
        ∧ OneEach Options.default misfitDocument l.bindings := by
  have hrun : (Header.ofValue misfitDocument).toOption.map (fun h =>
      ((lower checkedOptions h).toOption.map fun l =>
        l.failures.map fun f => (f.name, f.refusal.name),
        (lower Options.default h).toOption.map fun l => (l.bindings.names, l.failures)))
      = some (some [("Outer", "Inner")], some (["draw", "Outer", "Id"], [])) := by
    decide +kernel
  obtain ⟨h, hh, hlowered⟩ := Option.map_eq_some_iff.mp hrun
  obtain ⟨hchecked, hdefault⟩ := Prod.mk.inj hlowered
  obtain ⟨l, hl, hfailures⟩ := Option.map_eq_some_iff.mp hchecked
  obtain ⟨l', hl', hbound⟩ := Option.map_eq_some_iff.mp hdefault
  obtain ⟨hnames, hnone⟩ := Prod.mk.inj hbound
  rw [toOption_eq_some] at hh hl hl'
  exact ⟨h, hh, ⟨l, hl, hfailures, (document_lowers hh hl).1⟩,
    l', hl', hnames, (document_lowers hh hl').2.2 hnone⟩

end Interop.Binding
