import Interop.Proofs.Binding.Faults

/-!
# Lowering a whole header

The seven sections of a header are one list of declarations, in the order in which failures are
reported.  Each declaration has an outcome of its own (`Declaration.outcome`), and lowering a header
is no more than to look at all outcomes: what was bound goes to the place of its section, what was
refused to the failures, and nothing is lost, repeated or moved (`lower_complete`).
-/

set_option autoImplicit false

namespace Interop.Binding

/-! ## Outcomes -/

namespace Outcome

variable {β : Type}

/-- The declaration was bound or refused: there was no fault. -/
def Returns (x : Outcome β) : Prop := ∃ r, x = .ok r

/-- What a declaration was bound to. -/
def bound? : Outcome β → Option β
  | .ok (.ok b) => some b
  | _ => none

/-- Why a declaration was not bound. -/
def failure? : Outcome β → Option Failure
  | .ok (.error failure) => some failure
  | _ => none

/-- A section is collected when no outcome in it is a fault. -/
theorem collect_eq_ok {xs : List (Outcome β)} {r : List β × List Failure} :
    collect xs = .ok r ↔
      (∀ x ∈ xs, x.Returns) ∧ r = (xs.filterMap bound?, xs.filterMap failure?) := by
  induction xs generalizing r with
  | nil => simp [collect, eq_comm]
  | cons x xs ih =>
    rw [List.forall_mem_cons]
    cases x with
    | error fault => simp [collect, Returns]
    | ok outcome =>
      have hreturns : Returns (.ok outcome) := ⟨outcome, rfl⟩
      cases outcome with
      | ok b =>
        unfold collect
        rw [bind_eq_ok]
        constructor
        · rintro ⟨r', hr', hr⟩
          obtain ⟨hxs, rfl⟩ := ih.mp hr'
          exact ⟨⟨hreturns, hxs⟩, (Except.ok.inj hr).symm⟩
        · rintro ⟨⟨-, hxs⟩, rfl⟩
          exact ⟨_, ih.mpr ⟨hxs, rfl⟩, rfl⟩
      | error failure =>
        unfold collect
        rw [bind_eq_ok]
        constructor
        · rintro ⟨r', hr', hr⟩
          obtain ⟨hxs, rfl⟩ := ih.mp hr'
          exact ⟨⟨hreturns, hxs⟩, (Except.ok.inj hr).symm⟩
        · rintro ⟨⟨-, hxs⟩, rfl⟩
          exact ⟨_, ih.mpr ⟨hxs, rfl⟩, rfl⟩

theorem collect_eq_error {xs : List (Outcome β)} {fault : Fault} (h : collect xs = .error fault) :
    .error fault ∈ xs := by
  induction xs with
  | nil => simp [collect] at h
  | cons x xs ih =>
    cases x with
    | error fault' =>
      obtain rfl := Except.error.inj h
      exact List.mem_cons_self
    | ok outcome =>
      have hrest : collect xs = .error fault := by
        cases hxs : collect xs with
        | error fault' => cases outcome <;> simpa [collect, hxs] using h
        | ok r => cases outcome <;> simp [collect, hxs] at h
      exact List.mem_cons_of_mem _ (ih hrest)

theorem failure?_eq_some {x : Outcome β} {f : Failure} :
    x.failure? = some f ↔ x = .ok (.error f) := by
  cases x with
  | error fault => simp [failure?]
  | ok outcome => cases outcome <;> simp [failure?]

/-- The same outcome with something else bound. -/
def map {γ : Type} (g : β → γ) (x : Outcome β) : Outcome γ := Except.map (Except.map g) x

variable {γ : Type} {g : β → γ}

@[simp] theorem returns_map {x : Outcome β} : (x.map g).Returns ↔ x.Returns := by
  cases x with
  | error fault => simp [map, Except.map, Returns]
  | ok outcome => simp [map, Except.map, Returns]

@[simp] theorem failure?_map {x : Outcome β} : (x.map g).failure? = x.failure? := by
  cases x with
  | error fault => rfl
  | ok outcome => cases outcome <;> rfl

@[simp] theorem map_eq_error {x : Outcome β} {fault : Fault} :
    x.map g = .error fault ↔ x = .error fault := by
  cases x with
  | error fault => simp [map, Except.map]
  | ok outcome => simp [map, Except.map]

theorem map_eq_failure {x : Outcome β} {f : Failure} (h : x.map g = .ok (.error f)) :
    x = .ok (.error f) := by
  cases x with
  | error fault => simp [map, Except.map] at h
  | ok outcome =>
    cases outcome with
    | ok b => simp [map, Except.map] at h
    | error f' => simpa [map, Except.map] using h

/-- Whatever is not bound has failed. -/
theorem length_filterMap {xs : List (Outcome β)} (h : ∀ x ∈ xs, x.Returns) :
    (xs.filterMap bound?).length + (xs.filterMap failure?).length = xs.length := by
  induction xs with
  | nil => rfl
  | cons x xs ih =>
    obtain ⟨⟨outcome, rfl⟩, hxs⟩ := List.forall_mem_cons.mp h
    have hlength := ih hxs
    cases outcome with
    | ok b =>
      rw [List.filterMap_cons_some (f := bound?) rfl, List.filterMap_cons_none (f := failure?) rfl]
      simp only [List.length_cons]
      omega
    | error failure =>
      rw [List.filterMap_cons_none (f := bound?) rfl, List.filterMap_cons_some (f := failure?) rfl]
      simp only [List.length_cons]
      omega

end Outcome

/-! ## Declarations of any kind -/

/-- A top-level declaration. -/
inductive Declaration
  | function (f : Decl.Function)
  | functionPointer (p : Decl.FunctionPointer)
  | record (r : Decl.Record)
  | typedef (a : Decl.Alias)
  | opaquePointer (p : Decl.OpaquePointer)
  | opaqueType (t : Decl.OpaqueType)
  | enumeration (e : Decl.Enumeration)

/-- What a declaration is bound to. -/
inductive Bound
  | function (f : Function)
  | functionPointer (p : FunctionPointer)
  | struct (s : Struct)
  | opaqueStruct (s : OpaqueStruct)
  | enumeration (e : Enumeration)

namespace Declaration

def kind : Declaration → Decl.Kind
  | function _ => .function
  | functionPointer _ => .functionPointer
  | record _ => .record
  | typedef _ => .typedef
  | opaquePointer _ => .opaquePointer
  | opaqueType _ => .opaqueType
  | enumeration _ => .enumeration

def name : Declaration → String
  | function f => f.name
  | functionPointer p => p.name
  | record r => r.name
  | typedef a => a.name
  | opaquePointer p => p.name
  | opaqueType t => t.name
  | enumeration e => e.name

def location : Declaration → Option Decl.Location
  | function f => f.location
  | functionPointer p => p.location
  | record r => r.location
  | typedef a => a.location
  | opaquePointer p => p.location
  | opaqueType t => t.location
  | enumeration e => e.location

/-- What becomes of a declaration: this depends on nothing but the declaration and the options. -/
def outcome (o : Options) : Declaration → Outcome Bound
  | function f => (Outcome.ofFunction o f).map .function
  | functionPointer p => (Outcome.ofFunctionPointer o p).map .functionPointer
  | record r => (Outcome.ofRecord o r).map .struct
  | typedef a => (Outcome.ofAlias o a).map .struct
  | opaquePointer p => (Outcome.ofOpaquePointer o p).map .struct
  | opaqueType t => (Outcome.ofOpaqueType t).map .opaqueStruct
  | enumeration e => (Outcome.ofEnumeration o e).map .enumeration

/-- The declaration was refused. -/
def fails (o : Options) (d : Declaration) : Bool := (d.outcome o).failure?.isSome

/-- A failure is that of a declaration. -/
structure FailsWith (o : Options) (d : Declaration) (f : Failure) : Prop where
  outcome : d.outcome o = .ok (.error f)
  kind : f.kind = d.kind
  name : f.name = d.name
  location : f.location = d.location

theorem outcome_eq_failure {β : Type} {k : Decl.Kind} {n : String} {l : Option Decl.Location}
    {x : Except LoweringError β} {f : Failure} (h : Binding.outcome k n l x = .ok (.error f)) :
    f.kind = k ∧ f.name = n ∧ f.location = l := by
  cases x with
  | ok b => simp [Binding.outcome] at h
  | error e =>
    cases e with
    | fault fault => simp [Binding.outcome] at h
    | refused refusal =>
      obtain rfl := Except.error.inj (Except.ok.inj h)
      exact ⟨rfl, rfl, rfl⟩

/-- A failure says which declaration it is about. -/
theorem failsWith {o : Options} {d : Declaration} {f : Failure}
    (h : d.outcome o = .ok (.error f)) : d.FailsWith o f := by
  have hparts : f.kind = d.kind ∧ f.name = d.name ∧ f.location = d.location := by
    cases d with
    | function f' => exact outcome_eq_failure (Outcome.map_eq_failure h)
    | functionPointer p => exact outcome_eq_failure (Outcome.map_eq_failure h)
    | record r => exact outcome_eq_failure (Outcome.map_eq_failure h)
    | typedef a => exact outcome_eq_failure (Outcome.map_eq_failure h)
    | opaquePointer p => exact outcome_eq_failure (Outcome.map_eq_failure h)
    | opaqueType t => exact outcome_eq_failure (Outcome.map_eq_failure h)
    | enumeration e => exact outcome_eq_failure (Outcome.map_eq_failure h)
  exact ⟨h, hparts.1, hparts.2.1, hparts.2.2⟩

/-- The failures of declarations are those of the ones that fail, in their order. -/
theorem forall₂_failures (o : Options) (ds : List Declaration) :
    List.Forall₂ (FailsWith o) (ds.filter (fails o))
      (ds.filterMap fun d => (d.outcome o).failure?) := by
  induction ds with
  | nil => exact .nil
  | cons d ds ih =>
    cases hd : (d.outcome o).failure? with
    | none =>
      have hfails : ¬ fails o d = true := by simp [fails, hd]
      rw [List.filter_cons_of_neg hfails,
        List.filterMap_cons_none (f := fun d => (outcome o d).failure?) hd]
      exact ih
    | some f =>
      have hfails : fails o d = true := by simp [fails, hd]
      rw [List.filter_cons_of_pos hfails,
        List.filterMap_cons_some (f := fun d => (outcome o d).failure?) hd]
      exact .cons (failsWith (Outcome.failure?_eq_some.mp hd)) ih

end Declaration

/-- The declarations of a header in the order of their failures. -/
def declarations (h : Decl.Header) : List Declaration :=
  h.functions.map .function ++ h.functionPointers.map .functionPointer ++ h.records.map .record
    ++ h.aliases.map .typedef ++ h.opaquePointers.map .opaquePointer
    ++ h.opaqueTypes.map .opaqueType ++ h.enumerations.map .enumeration

/-! ## Whole headers -/

/-- What the outcomes of a section leave in the bindings. -/
def boundOf {α β : Type} (f : α → Outcome β) (xs : List α) : List β :=
  xs.filterMap fun x => (f x).bound?

/-- What lowering makes of a header in which there is no fault. -/
def lowered (o : Options) (h : Decl.Header) : Lowered where
  bindings :=
    { functions := boundOf (Outcome.ofFunction o) h.functions
      functionPointers := boundOf (Outcome.ofFunctionPointer o) h.functionPointers
      structs := boundOf (Outcome.ofRecord o) h.records ++ boundOf (Outcome.ofAlias o) h.aliases
        ++ boundOf (Outcome.ofOpaquePointer o) h.opaquePointers
      opaqueStructs := boundOf Outcome.ofOpaqueType h.opaqueTypes
      enumerations := boundOf (Outcome.ofEnumeration o) h.enumerations }
  failures := (declarations h).filterMap fun d => (d.outcome o).failure?

section Header

variable {o : Options} {h : Decl.Header}

/-- The declarations of a header, section by section. -/
theorem forall_declarations {P : Declaration → Prop} :
    (∀ d ∈ declarations h, P d) ↔
      (∀ f ∈ h.functions, P (.function f)) ∧ (∀ p ∈ h.functionPointers, P (.functionPointer p))
      ∧ (∀ r ∈ h.records, P (.record r)) ∧ (∀ a ∈ h.aliases, P (.typedef a))
      ∧ (∀ p ∈ h.opaquePointers, P (.opaquePointer p)) ∧ (∀ t ∈ h.opaqueTypes, P (.opaqueType t))
      ∧ ∀ e ∈ h.enumerations, P (.enumeration e) := by
  simp only [declarations, List.forall_mem_append, List.forall_mem_map, and_assoc]

/-- The section of a kind is collected when none of its declarations is at fault. -/
theorem collect_section {α β : Type} {f : α → Outcome β} {xs : List α} :
    (∀ x ∈ xs, (f x).Returns) ↔
      Outcome.collect (xs.map f) = .ok (boundOf f xs, xs.filterMap fun x => (f x).failure?) := by
  rw [Outcome.collect_eq_ok, List.forall_mem_map, List.filterMap_map, List.filterMap_map]
  exact ⟨fun hxs => ⟨hxs, rfl⟩, fun hxs => hxs.1⟩

theorem lower_of_returns (hall : ∀ d ∈ declarations h, (d.outcome o).Returns) :
    lower o h = .ok (lowered o h) := by
  obtain ⟨h₁, h₂, h₃, h₄, h₅, h₆, h₇⟩ := forall_declarations.mp hall
  simp only [Declaration.outcome, Outcome.returns_map] at h₁ h₂ h₃ h₄ h₅ h₆ h₇
  unfold lower
  rw [collect_section.mp h₁, collect_section.mp h₂, collect_section.mp h₃, collect_section.mp h₄,
    collect_section.mp h₅, collect_section.mp h₆, collect_section.mp h₇]
  simp only [ok_bind, lowered, declarations, List.filterMap_append, List.filterMap_map,
    Function.comp_def, Declaration.outcome, Outcome.failure?_map]
  rfl

/-- A section is collected when none of its declarations is at fault, and a fault is that of a
declaration. -/
theorem section_ends {α β : Type} {f : α → Outcome β} {g : β → Bound} {xs : List α}
    (c : α → Declaration) (hc : ∀ x, (c x).outcome o = (f x).map g)
    (hmem : ∀ x ∈ xs, c x ∈ declarations h) :
    Ends (Outcome.collect (xs.map f)) (fun _ => ∀ x ∈ xs, ((c x).outcome o).Returns)
      fun fault => ∃ d ∈ declarations h, d.outcome o = .error fault where
  result hr := by
    intro x hx
    rw [hc, Outcome.returns_map]
    exact (Outcome.collect_eq_ok.mp hr).1 (f x) (List.mem_map_of_mem hx)
  failure hfault := by
    obtain ⟨x, hx, hfx⟩ := List.mem_map.mp (Outcome.collect_eq_error hfault)
    exact ⟨c x, hmem x hx, by rw [hc, Outcome.map_eq_error, hfx]⟩

theorem lower_ends (o : Options) (h : Decl.Header) :
    Ends (lower o h) (fun _ => ∀ d ∈ declarations h, (d.outcome o).Returns)
      fun fault => ∃ d ∈ declarations h, d.outcome o = .error fault := by
  obtain ⟨h₁, h₂, h₃, h₄, h₅, h₆, h₇⟩ := forall_declarations.mp fun d (hd : d ∈ declarations h) => hd
  refine (section_ends .function (fun _ => rfl) h₁).bind fun _ r₁ => ?_
  refine (section_ends .functionPointer (fun _ => rfl) h₂).bind fun _ r₂ => ?_
  refine (section_ends .record (fun _ => rfl) h₃).bind fun _ r₃ => ?_
  refine (section_ends .typedef (fun _ => rfl) h₄).bind fun _ r₄ => ?_
  refine (section_ends .opaquePointer (fun _ => rfl) h₅).bind fun _ r₅ => ?_
  refine (section_ends .opaqueType (fun _ => rfl) h₆).bind fun _ r₆ => ?_
  refine (section_ends .enumeration (fun _ => rfl) h₇).bind fun _ r₇ => Ends.ok ?_
  exact forall_declarations.mpr ⟨r₁, r₂, r₃, r₄, r₅, r₆, r₇⟩

/-- A header is lowered when none of its declarations is at fault. -/
theorem lower_eq_ok {l : Lowered} :
    lower o h = .ok l ↔ (∀ d ∈ declarations h, (d.outcome o).Returns) ∧ l = lowered o h := by
  constructor
  · intro hl
    have hall := (lower_ends o h).result hl
    exact ⟨hall, Except.ok.inj (hl.symm.trans (lower_of_returns hall))⟩
  · rintro ⟨hall, rfl⟩
    exact lower_of_returns hall

/-- Whatever is not bound is a failure. -/
theorem count_lowered (hall : ∀ d ∈ declarations h, (d.outcome o).Returns) :
    (lowered o h).bindings.names.length + (lowered o h).failures.length = h.size := by
  have hsection {α β : Type} {f : α → Outcome β} {xs : List α} (hxs : ∀ x ∈ xs, (f x).Returns) :
      (boundOf f xs).length + (xs.filterMap fun x => (f x).failure?).length = xs.length := by
    have hlength := Outcome.length_filterMap (List.forall_mem_map.mpr hxs)
    rwa [List.filterMap_map, List.filterMap_map, List.length_map] at hlength
  obtain ⟨h₁, h₂, h₃, h₄, h₅, h₆, h₇⟩ := forall_declarations.mp hall
  simp only [Declaration.outcome, Outcome.returns_map] at h₁ h₂ h₃ h₄ h₅ h₆ h₇
  have s₁ := hsection h₁
  have s₂ := hsection h₂
  have s₃ := hsection h₃
  have s₄ := hsection h₄
  have s₅ := hsection h₅
  have s₆ := hsection h₆
  have s₇ := hsection h₇
  simp only [lowered, Bindings.names, declarations, Decl.Header.size, List.filterMap_append,
    List.filterMap_map, Function.comp_def, Declaration.outcome, Outcome.failure?_map,
    List.length_append, List.length_map]
  omega

end Header

/-! ## Faults of declarations -/

theorem outcome_eq_error {β : Type} {k : Decl.Kind} {n : String} {l : Option Decl.Location}
    {x : Except LoweringError β} {P : β → Prop} {F : Fault → Prop} (hx : Ends x P (FaultIn F))
    {fault : Fault} (hfault : outcome k n l x = .error fault) : F fault := by
  cases hr : x with
  | ok b => simp [hr, outcome] at hfault
  | error e =>
    cases e with
    | refused refusal => simp [hr, outcome] at hfault
    | fault fault' =>
      rw [hr] at hfault
      obtain rfl := Except.error.inj hfault
      exact hx.failure hr

theorem withNested_subset {r : Decl.Record} {rs : List Decl.Record} (hr : r ∈ rs) :
    ∀ r' ∈ withNested r, r' ∈ allNested rs := by
  induction rs with
  | nil => exact absurd hr (by simp)
  | cons r₀ rs ih =>
    intro r' hr'
    unfold allNested
    rcases List.mem_cons.mp hr with rfl | hr
    · exact List.mem_append_left _ hr'
    · exact List.mem_append_right _ (ih hr r' hr')

/-- Only the digit limit, the sums of records and the name of the boolean type can make a declaration
a fault. -/
theorem declaration_fault (o : Options) (h : Decl.Header) :
    ∀ d ∈ declarations h, ∀ fault, d.outcome o = .error fault →
      TreeFault o (allNested h.records) fault := by
  have hdigits {β : Type} {k : Decl.Kind} {n : String} {l : Option Decl.Location}
      {x : Except LoweringError β} (hx : Ends x (fun _ => True) (FaultIn Fault.IsDigitLimit))
      {g : β → Bound} {fault : Fault} (hfault : (outcome k n l x).map g = .error fault) :
      TreeFault o (allNested h.records) fault :=
    .inl (.inl (outcome_eq_error hx (Outcome.map_eq_error.mp hfault)))
  refine forall_declarations.mpr ⟨?_, ?_, ?_, ?_, ?_, ?_, ?_⟩
  · exact fun f _ _ => hdigits (lowerFunction_ends o f)
  · exact fun p _ _ => hdigits (lowerFunctionPointer_ends o p)
  · intro r hr fault hfault
    have hrecord := outcome_eq_error (lowerRecord_ends o r) (Outcome.map_eq_error.mp hfault)
    exact hrecord.mono (withNested_subset hr)
  · exact fun a _ _ => hdigits (singleField_ends o a.name a.location "Data" a.underlyingType)
  · exact fun p _ _ => hdigits (singleField_ends o p.name p.location "Pointer" p.pointerType)
  · exact fun t _ _ => hdigits (lowerOpaqueType_ends t)
  · exact fun e _ _ => hdigits (lowerEnumeration_ends o e)

/-! ## Completeness -/

/-- The result of lowering accounts for every declaration of the header, each in its place. -/
structure Accounts (o : Options) (h : Decl.Header) (l : Lowered) : Prop where
  /-- There was no fault in any of them. -/
  returns : ∀ d ∈ declarations h, (d.outcome o).Returns
  functions : l.bindings.functions = boundOf (Outcome.ofFunction o) h.functions
  functionPointers :
    l.bindings.functionPointers = boundOf (Outcome.ofFunctionPointer o) h.functionPointers
  structs : l.bindings.structs =
    boundOf (Outcome.ofRecord o) h.records ++ boundOf (Outcome.ofAlias o) h.aliases
      ++ boundOf (Outcome.ofOpaquePointer o) h.opaquePointers
  opaqueStructs : l.bindings.opaqueStructs = boundOf Outcome.ofOpaqueType h.opaqueTypes
  enumerations : l.bindings.enumerations = boundOf (Outcome.ofEnumeration o) h.enumerations
  failures : List.Forall₂ (Declaration.FailsWith o)
    ((declarations h).filter (Declaration.fails o)) l.failures
  count : l.bindings.names.length + l.failures.length = h.size
  anyFailed : l.anyFailed = true ↔ ∃ d ∈ declarations h, d.fails o = true

theorem lowered_accounts {o : Options} {h : Decl.Header}
    (hall : ∀ d ∈ declarations h, (d.outcome o).Returns) : Accounts o h (lowered o h) where
  returns := hall
  functions := rfl
  functionPointers := rfl
  structs := rfl
  opaqueStructs := rfl
  enumerations := rfl
  failures := Declaration.forall₂_failures o (declarations h)
  count := count_lowered hall
  anyFailed := by
    have hfailures := (Declaration.forall₂_failures o (declarations h)).length_eq
    have hany : (lowered o h).anyFailed = true ↔ (lowered o h).failures.length ≠ 0 := by
      simp [Lowered.anyFailed]
    rw [hany, lowered, ← hfailures]
    simp

/-- Lowering a header returns when no declaration is at fault, and the result accounts for every
declaration.  The only faults are numbers with too many digits, and, if layouts are checked, the
sums of records that mix doubles with integers too large for them. -/
theorem lower_complete {o : Options} {s : String} (hs : o.booleanTypeName = .text s)
    (h : Decl.Header) :
    (∀ l, lower o h = .ok l → Accounts o h l)
    ∧ ((∀ d ∈ declarations h, (d.outcome o).Returns) → ∃ l, lower o h = .ok l)
    ∧ ∀ fault, lower o h = .error fault → RecordFault o (allNested h.records) fault := by
  refine ⟨fun l hl => ?_, fun hall => ⟨_, lower_of_returns hall⟩, fun fault hfault => ?_⟩
  · obtain ⟨hall, rfl⟩ := lower_eq_ok.mp hl
    exact lowered_accounts hall
  · obtain ⟨d, hd, hd'⟩ := (lower_ends o h).failure hfault
    exact (declaration_fault o h d hd fault hd').resolve_right (not_nameless hs fault)

def checkedOptions : Options := { Options.default with validateLayout := true }

def sizedType (name : String) (size : Number) : Decl.TypeUse :=
  { name, nativeName := name, sizeOf := size, alignOf := .int 4, arraySize := none
    isSystem := false }

/-- A record of a single field at its beginning. -/
def singleRecord (name : String) (size fieldSize padding : Number) (nested : List Decl.Record) :
    Decl.Record where
  name := name
  location := none
  type := sizedType name size
  fields := [⟨"data", none, sizedType "int" fieldSize, .int 0, padding⟩]
  nested := nested

/-- A function with a convention that is not known, a record with a nested record of another size
than its field, and two declarations that are bound. -/
def sampleHeader : Decl.Header where
  functions := [⟨"draw", none, .other "StdCall", sizedType "void" (.int 0), []⟩]
  functionPointers := []
  records := [singleRecord "Point" (.int 4) (.int 4) (.int 0) [],
    singleRecord "Shape" (.int 4) (.int 4) (.int 0)
      [singleRecord "Inner" (.int 9) (.int 4) (.int 2) []]]
  opaquePointers := []
  opaqueTypes := []
  aliases := [⟨"ShapeId", none, sizedType "int" (.int 4)⟩]
  enumerations := []

theorem lower_complete_sample :
    ∃ l, lower checkedOptions sampleHeader = .ok l ∧ Accounts checkedOptions sampleHeader l
      ∧ l.bindings.names = ["Point", "ShapeId"]
      ∧ l.failures.map (fun f => (f.kind, f.name)) = [(.function, "draw"), (.record, "Shape")] := by
  have hrun : (lower checkedOptions sampleHeader).toOption.map (fun l =>
      (l.bindings.names, l.failures.map fun f => (f.kind, f.name)))
      = some (["Point", "ShapeId"], [(.function, "draw"), (.record, "Shape")]) := by
    decide +kernel
  cases hl : lower checkedOptions sampleHeader with
  | error fault =>
    rw [hl] at hrun
    simp [Except.toOption] at hrun
  | ok l =>
    rw [hl] at hrun
    obtain ⟨hnames, hfailures⟩ := Prod.mk.inj (Option.some.inj hrun)
    exact ⟨l, rfl, (lower_complete rfl sampleHeader).1 l hl, hnames, hfailures⟩

/-! ## A sum that fails

The size of a field is an integer that no double reaches, and its padding is a double. -/

def clashingHeader : Decl.Header where
  functions := []
  functionPointers := []
  records := [singleRecord "Huge" (.int (twoTo 1024)) (.int (twoTo 1024))
    (.double (Binary64.zero false)) []]
  opaquePointers := []
  opaqueTypes := []
  aliases := []
  enumerations := []

theorem clashing_sum_is_no_digit_limit :
    ∃ (o : Options) (s : String) (h : Decl.Header) (fault : Fault),
      o.booleanTypeName = .text s ∧ lower o h = .error fault ∧ ¬ fault.IsDigitLimit := by
  have hrun : (match lower checkedOptions clashingHeader with
      | .ok _ => none
      | .error fault => some fault) = some (.number .tooLargeForDouble) := by
    decide +kernel
  cases hl : lower checkedOptions clashingHeader with
  | ok l =>
    rw [hl] at hrun
    simp at hrun
  | error fault =>
    rw [hl] at hrun
    obtain rfl := Option.some.inj hrun
    exact ⟨checkedOptions, _, clashingHeader, _, rfl, hl, by rintro ⟨⟩⟩

end Interop.Binding
