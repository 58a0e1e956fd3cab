import Interop.Binding.Lowering
import Interop.Binding.Member
import Interop.Proofs.Decl.Locations
import Interop.Proofs.Paired

/-!
# Locations only make comments

Lowering a header and lowering it without its locations go side by side: the same declarations are
refused for the same reasons, and the bindings are the same but for their comments
(`lower_beside`).  The one thing that a location can do is to end the lowering, if the number of its
line has too many digits to be written.
-/

set_option autoImplicit false

namespace Interop.Binding

/-! ## Bindings without comments -/

def Parameter.uncommented (p : Parameter) : Parameter := { p with comment := "" }

def Function.uncommented (f : Function) : Function :=
  { f with comment := "", parameters := f.parameters.map Parameter.uncommented }

def FunctionPointer.uncommented (p : FunctionPointer) : FunctionPointer := { p with comment := "" }

def Field.uncommented (f : Field) : Field := { f with comment := "" }

mutual

def Struct.uncommented : Struct → Struct
  | ⟨name, _, type, fields, nested⟩ =>
    ⟨name, "", type, fields.map Field.uncommented, nestedUncommented nested⟩

def nestedUncommented : List Struct → List Struct
  | [] => []
  | s :: rest => Struct.uncommented s :: nestedUncommented rest

end

def OpaqueStruct.uncommented (s : OpaqueStruct) : OpaqueStruct := { s with comment := "" }

def EnumMember.uncommented (m : EnumMember) : EnumMember := { m with comment := "" }

def Enumeration.uncommented (e : Enumeration) : Enumeration :=
  { e with comment := "", members := e.members.map EnumMember.uncommented }

def Member.uncommented : Member → Member
  | function f => .function f.uncommented
  | functionPointer p => .functionPointer p.uncommented
  | struct s => .struct s.uncommented
  | opaqueStruct s => .opaqueStruct s.uncommented
  | enumeration e => .enumeration e.uncommented

def Bindings.uncommented (b : Bindings) : Bindings where
  functions := b.functions.map Function.uncommented
  functionPointers := b.functionPointers.map FunctionPointer.uncommented
  structs := b.structs.map Struct.uncommented
  opaqueStructs := b.opaqueStructs.map OpaqueStruct.uncommented
  enumerations := b.enumerations.map Enumeration.uncommented

theorem nestedUncommented_eq (ss : List Struct) :
    nestedUncommented ss = ss.map Struct.uncommented := by
  induction ss with
  | nil => rfl
  | cons s ss ih => rw [nestedUncommented, ih, List.map_cons]

theorem Bindings.members_uncommented (b : Bindings) :
    b.uncommented.members = b.members.map Member.uncommented := by
  simp only [uncommented, members, List.map_append, List.map_map]
  rfl

theorem Member.name_uncommented (m : Member) : m.uncommented.name = m.name := by
  cases m with
  | struct s => cases s; rfl
  | _ => rfl

/-! ## The comments that stand in a file -/

/-- Every comment of the struct and of the structs nested in it satisfies the predicate. -/
inductive Struct.Commented (P : String → Prop) : Struct → Prop
  | mk {name comment : String} {type : TypeUse} {fields : List Field} {nested : List Struct}
      (comment_holds : P comment) (nested_hold : ∀ s ∈ nested, Struct.Commented P s) :
      Struct.Commented P ⟨name, comment, type, fields, nested⟩

def Member.Commented (P : String → Prop) : Member → Prop
  | function f => P f.comment
  | functionPointer p => P p.comment
  | struct s => s.Commented P
  | opaqueStruct s => P s.comment
  | enumeration e => P e.comment

structure Bindings.Commented (P : String → Prop) (b : Bindings) : Prop where
  functions : ∀ f ∈ b.functions, P f.comment
  functionPointers : ∀ p ∈ b.functionPointers, P p.comment
  structs : ∀ s ∈ b.structs, s.Commented P
  opaqueStructs : ∀ s ∈ b.opaqueStructs, P s.comment
  enumerations : ∀ e ∈ b.enumerations, P e.comment

theorem Bindings.Commented.member {P : String → Prop} {b : Bindings} (h : b.Commented P) {m : Member}
    (hm : m ∈ b.members) : m.Commented P := by
  simp only [members, List.mem_append, List.mem_map] at hm
  rcases hm with (((⟨f, hf, rfl⟩ | ⟨p, hp, rfl⟩) | ⟨s, hs, rfl⟩) | ⟨s, hs, rfl⟩) | ⟨e, he, rfl⟩
  · exact h.functions f hf
  · exact h.functionPointers p hp
  · exact h.structs s hs
  · exact h.opaqueStructs s hs
  · exact h.enumerations e he

/-! ## Failures without locations -/

def Refusal.unlocated (r : Refusal) : Refusal := { r with location := none }

def Failure.unlocated (f : Failure) : Failure :=
  { f with location := none, refusal := f.refusal.unlocated }

def Lowered.unlocated (l : Lowered) : Lowered where
  bindings := l.bindings.uncommented
  failures := l.failures.map Failure.unlocated

/-- The errors of a declaration and of the declaration without its locations. -/
inductive LoweringError.Alike : LoweringError → LoweringError → Prop
  | refused (r : Refusal) : Alike (.refused r) (.refused r.unlocated)
  | fault (f : Fault) : Alike (.fault f) (.fault f)

/-- A fault that comes from a location: not all of them can be written. -/
def LoweringError.OfLocation (writable : Prop) : LoweringError → Prop
  | .refused _ => False
  | .fault _ => ¬ writable

/-! ## Declarations -/

section Lowering

variable {o : Options} {P : String → Prop} {writable : Prop}

/-- A computation of lowering beside the one without locations. -/
abbrev Beside (writable : Prop) {α β : Type} (R : α → β → Prop) :
    Except LoweringError α → Except LoweringError β → Prop :=
  Paired R LoweringError.Alike (LoweringError.OfLocation writable)

/-- What is asked of a location: that its comment satisfies the predicate, and that it has one if
all locations can be written. -/
def Known (P : String → Prop) (writable : Prop) (l : Decl.Location) : Prop :=
  (∀ t, l.comment = .ok t → P (String.ofList t)) ∧ (writable → ∃ t, l.comment = .ok t)

/-- Another step with numbers only, taken with and without locations. -/
theorem beside_after {α β γ : Type} {R : β → γ → Prop} {x : Except LoweringError α}
    (hx : ∀ e, x = .error e → ∃ fault, e = .fault fault) {f : α → Except LoweringError β}
    {g : α → Except LoweringError γ} (hfg : ∀ a, Beside writable R (f a) (g a)) :
    Beside writable R (x >>= f) (x >>= g) := by
  cases hx' : x with
  | ok a => exact hfg a
  | error e =>
    obtain ⟨fault, rfl⟩ := hx e hx'
    exact .error (.fault fault)

theorem numeric_fault {α : Type} {r : Except NumberFault α} {e : LoweringError}
    (h : numeric r = .error e) : ∃ fault, e = .fault fault := by
  obtain ⟨n, -, rfl⟩ := mapError_eq_error.mp h
  exact ⟨.number n, rfl⟩

theorem faulty_fault {α : Type} {r : Except Fault α} {e : LoweringError}
    (h : faulty r = .error e) : ∃ fault, e = .fault fault := by
  obtain ⟨f, -, rfl⟩ := mapError_eq_error.mp h
  exact ⟨f, rfl⟩

theorem comment_beside (hP : P "") {location : Option Decl.Location}
    (h : ∀ l ∈ location.toList, Known P writable l) :
    Beside writable (fun c c₀ => c₀ = "" ∧ P c) (numeric (Decl.locationComment location))
      (numeric (Decl.locationComment none)) := by
  cases location with
  | none => exact .ok ⟨rfl, hP⟩
  | some l =>
    obtain ⟨hcomment, hwritable⟩ := h l List.mem_cons_self
    cases hl : l.comment with
    | ok t =>
      have hsome : numeric (Decl.locationComment (some l)) = .ok (String.ofList t) := by
        rw [Decl.locationComment, hl]
        rfl
      rw [hsome]
      exact .ok ⟨rfl, hcomment t hl⟩
    | error e =>
      have hsome : numeric (Decl.locationComment (some l)) = .error (.fault (.number e)) := by
        rw [Decl.locationComment, hl]
        rfl
      rw [hsome]
      refine .excused fun hw => ?_
      obtain ⟨t, ht⟩ := hwritable hw
      rw [hl] at ht
      cases ht

theorem lowerParameters_beside (hP : P "") {ps : List Decl.Parameter} (taken : List String)
    (h : ∀ l ∈ ps.flatMap (·.location.toList), Known P writable l) :
    Beside writable (fun lowered lowered₀ => lowered₀ = lowered.map Parameter.uncommented)
      (lowerParameters o taken ps)
      (lowerParameters o taken (ps.map Decl.Parameter.unlocated)) := by
  induction ps generalizing taken with
  | nil => exact .ok rfl
  | cons p ps ih =>
    rw [List.flatMap_cons] at h
    obtain ⟨hp, hps⟩ := List.forall_mem_append.mp h
    refine beside_after (fun _ => numeric_fault) fun name => ?_
    refine (comment_beside hP hp).bind ?_
    rintro c _ ⟨rfl, -⟩
    refine (ih (taken ++ [name]) hps).bind ?_
    rintro lowered _ rfl
    exact .ok rfl

theorem lowerFunction_beside (hP : P "") {f : Decl.Function}
    (h : ∀ l ∈ f.locations, Known P writable l) :
    Beside writable (fun b b₀ => b₀ = b.uncommented ∧ P b.comment) (lowerFunction o f)
      (lowerFunction o f.unlocated) := by
  obtain ⟨hself, hparameters⟩ := List.forall_mem_append.mp h
  unfold lowerFunction
  dsimp only [Decl.Function.unlocated]
  cases f.callingConvention with
  | other convention => exact .error (.refused _)
  | c | unknown =>
    refine (comment_beside hP hself).bind ?_
    rintro c _ ⟨rfl, hc⟩
    refine (lowerParameters_beside hP [] hparameters).bind ?_
    rintro ps _ rfl
    exact .ok ⟨rfl, hc⟩

theorem lowerFunctionPointer_beside (hP : P "") {p : Decl.FunctionPointer}
    (h : ∀ l ∈ p.location.toList, Known P writable l) :
    Beside writable (fun b b₀ => b₀ = b.uncommented ∧ P b.comment) (lowerFunctionPointer o p)
      (lowerFunctionPointer o p.unlocated) := by
  refine (comment_beside hP h).bind ?_
  rintro c _ ⟨rfl, hc⟩
  exact .ok ⟨rfl, hc⟩

/-- The layout of a record is checked without regard to locations, but a refusal has one. -/
theorem checkLayout_beside (name : String) (location : Option Decl.Location) (type : Decl.TypeUse)
    (fields : List Decl.Field) (nested nested₀ : List Decl.Record) :
    Beside writable (fun _ _ => True) (checkLayout ⟨name, location, type, fields, nested⟩)
      (checkLayout ⟨name, none, type, fields.map Decl.Field.unlocated, nested₀⟩) := by
  have hoffsets : (fields.map Decl.Field.unlocated).map (·.offset) = fields.map (·.offset) := by
    rw [List.map_map]
    rfl
  have hcovered : coveredBytes (fields.map Decl.Field.unlocated) = coveredBytes fields := by
    rw [coveredBytes, List.mapM_map]
    rfl
  unfold checkLayout
  dsimp only
  rw [hoffsets, hcovered, List.isEmpty_map]
  split
  · exact .ok trivial
  · refine beside_after (fun _ => numeric_fault) fun covered => ?_
    split
    · refine beside_after (fun _ => numeric_fault) fun _ => ?_
      exact .error (.refused _)
    · exact .ok trivial

theorem lowerField_beside (hP : P "") {f : Decl.Field}
    (h : ∀ l ∈ f.location.toList, Known P writable l) :
    Beside writable (fun b b₀ => b₀ = b.uncommented) (lowerField o f) (lowerField o f.unlocated) := by
  have hcomment := comment_beside hP h
  unfold lowerField
  dsimp only [Decl.Field.unlocated]
  split
  · refine beside_after (fun e he => ?_) fun isWrapped => ?_
    · cases hk : faulty (elementKeyword o.elements (TypeUse.ofDecl o.booleanTypeName f.type).name) with
      | ok k =>
        rw [hk] at he
        cases he
      | error e' =>
        rw [hk] at he
        cases he
        exact faulty_fault hk
    · refine hcomment.bind ?_
      rintro c _ ⟨rfl, -⟩
      exact .ok rfl
  · rw [pure_bind, pure_bind]
    refine hcomment.bind ?_
    rintro c _ ⟨rfl, -⟩
    exact .ok rfl

mutual

theorem lowerRecord_beside (hP : P "") : ∀ r : Decl.Record, (∀ l ∈ r.locations, Known P writable l) →
    Beside writable (fun b b₀ => b₀ = b.uncommented ∧ b.Commented P) (lowerRecord o r)
      (lowerRecord o r.unlocated)
  | ⟨name, location, type, fields, nested⟩, h => by
    unfold Decl.Record.locations at h
    obtain ⟨hself, hnested⟩ := List.forall_mem_append.mp h
    obtain ⟨hself, hfields⟩ := List.forall_mem_append.mp hself
    -- What follows the check of the layout is the same whether or not the check is made.
    have hrest : Beside writable (fun b b₀ => b₀ = b.uncommented ∧ b.Commented P)
        (do
          return {
            name
            comment := ← numeric (Decl.locationComment location)
            type := .ofDecl o.booleanTypeName type
            fields := ← fields.mapM (lowerField o)
            nested := ← lowerNested o nested : Struct })
        (do
          return {
            name
            comment := ← numeric (Decl.locationComment none)
            type := .ofDecl o.booleanTypeName type
            fields := ← (fields.map Decl.Field.unlocated).mapM (lowerField o)
            nested := ← lowerNested o (Decl.nestedUnlocated nested) : Struct }) := by
      refine (comment_beside hP hself).bind ?_
      rintro c _ ⟨rfl, hc⟩
      refine (Paired.mapM_map fun f hf => lowerField_beside hP fun l hl =>
        hfields l (List.mem_flatMap.mpr ⟨f, hf, hl⟩)).bind fun fs fs₀ hfs => ?_
      refine (lowerNested_beside hP nested hnested).bind ?_
      rintro inner _ ⟨rfl, hinner⟩
      obtain rfl := eq_map_of_forall₂ hfs
      exact .ok ⟨by rw [Struct.uncommented, nestedUncommented_eq], .mk hc hinner⟩
    unfold lowerRecord Decl.Record.unlocated
    split
    · exact (checkLayout_beside name location type fields nested _).bind fun _ _ _ => hrest
    · exact hrest

theorem lowerNested_beside (hP : P "") : ∀ rs : List Decl.Record,
    (∀ l ∈ Decl.nestedLocations rs, Known P writable l) →
      Beside writable
        (fun bs bs₀ => bs₀ = bs.map Struct.uncommented ∧ ∀ b ∈ bs, Struct.Commented P b)
        (lowerNested o rs) (lowerNested o (Decl.nestedUnlocated rs))
  | [], _ => .ok ⟨rfl, by simp⟩
  | r :: rest, h => by
    unfold Decl.nestedLocations at h
    obtain ⟨hr, hrest⟩ := List.forall_mem_append.mp h
    unfold lowerNested Decl.nestedUnlocated
    refine (lowerRecord_beside hP r hr).bind ?_
    rintro b _ ⟨rfl, hb⟩
    refine (lowerNested_beside hP rest hrest).bind ?_
    rintro bs _ ⟨rfl, hbs⟩
    exact .ok ⟨rfl, List.forall_mem_cons.mpr ⟨hb, hbs⟩⟩

end

theorem singleField_beside (hP : P "") {name fieldName : String} {location : Option Decl.Location}
    {type : Decl.TypeUse} (h : ∀ l ∈ location.toList, Known P writable l) :
    Beside writable (fun b b₀ => b₀ = b.uncommented ∧ b.Commented P)
      (singleField o name location fieldName type) (singleField o name none fieldName type) := by
  refine (comment_beside hP h).bind ?_
  rintro c _ ⟨rfl, hc⟩
  exact .ok ⟨rfl, .mk hc (by simp)⟩

theorem lowerOpaqueType_beside (hP : P "") {t : Decl.OpaqueType}
    (h : ∀ l ∈ t.location.toList, Known P writable l) :
    Beside writable (fun b b₀ => b₀ = b.uncommented ∧ P b.comment) (lowerOpaqueType t)
      (lowerOpaqueType t.unlocated) := by
  refine (comment_beside hP h).bind ?_
  rintro c _ ⟨rfl, hc⟩
  exact .ok ⟨rfl, hc⟩

theorem lowerEnumeration_beside (hP : P "") {e : Decl.Enumeration}
    (h : ∀ l ∈ e.locations, Known P writable l) :
    Beside writable (fun b b₀ => b₀ = b.uncommented ∧ P b.comment) (lowerEnumeration o e)
      (lowerEnumeration o e.unlocated) := by
  obtain ⟨hself, hmembers⟩ := List.forall_mem_append.mp h
  have hmember : ∀ m ∈ e.members, Beside writable (fun b b₀ => b₀ = b.uncommented) (lowerEnumMember m)
      (lowerEnumMember m.unlocated) := by
    intro m hm
    refine (comment_beside hP fun l hl => hmembers l (List.mem_flatMap.mpr ⟨m, hm, hl⟩)).bind ?_
    rintro c _ ⟨rfl, -⟩
    exact .ok rfl
  refine (comment_beside hP hself).bind ?_
  rintro c _ ⟨rfl, hc⟩
  refine (Paired.mapM_map hmember).bind fun ms ms₀ hms => ?_
  obtain rfl := eq_map_of_forall₂ hms
  exact .ok ⟨rfl, hc⟩

/-! ## Whole headers -/

/-- An outcome with and without locations: bound to the same but for comments, or refused for the
same reason. -/
abbrev OutcomesBeside (writable : Prop) {α β : Type} (R : α → β → Prop) :
    Outcome α → Outcome β → Prop :=
  Paired (Paired R (fun f f₀ => f₀ = f.unlocated) fun _ => False) Eq fun _ => ¬ writable

theorem outcome_beside {α β : Type} {R : α → β → Prop} {x : Except LoweringError α}
    {x₀ : Except LoweringError β} (h : Beside writable R x x₀) (kind : Decl.Kind) (name : String)
    (location : Option Decl.Location) :
    OutcomesBeside writable R (outcome kind name location x) (outcome kind name none x₀) := by
  cases h with
  | ok hab => exact .ok (.ok hab)
  | error he =>
    cases he with
    | refused r => exact .ok (.error rfl)
    | fault f => exact .error rfl
  | @excused e _ he =>
    cases e with
    | refused r => exact absurd he id
    | fault f => exact .excused he

/-- Sections are collected alike. -/
theorem collect_beside {α β : Type} {R : α → β → Prop} {xs : List (Outcome α)}
    {ys : List (Outcome β)} (h : List.Forall₂ (OutcomesBeside writable R) xs ys) :
    Paired (fun r r₀ => List.Forall₂ R r.1 r₀.1 ∧ r₀.2 = r.2.map Failure.unlocated) Eq
      (fun _ => ¬ writable) (Outcome.collect xs) (Outcome.collect ys) := by
  induction h with
  | nil => exact .ok ⟨.nil, rfl⟩
  | cons hxy _ ih =>
    cases hxy with
    | error he => exact .error he
    | excused he => exact .excused he
    | ok houtcome =>
      cases houtcome with
      | ok hab =>
        refine ih.bind ?_
        rintro ⟨bs, fs⟩ ⟨bs₀, fs₀⟩ ⟨hbs, hfs⟩
        exact .ok ⟨.cons hab hbs, hfs⟩
      | error hf =>
        refine ih.bind ?_
        rintro ⟨bs, fs⟩ ⟨bs₀, fs₀⟩ ⟨hbs, hfs⟩
        exact .ok ⟨hbs, congrArg₂ List.cons hf hfs⟩
      | excused he => exact absurd he id

/-- A section of a header with and without locations. -/
theorem section_beside {α β : Type} {f : α → Outcome β} {m : α → α} {g : β → β} {Q : β → Prop}
    {xs : List α}
    (h : ∀ x ∈ xs, OutcomesBeside writable (fun b b₀ => b₀ = g b ∧ Q b) (f x) (f (m x))) :
    Paired (fun r r₀ => (r₀.1 = r.1.map g ∧ ∀ b ∈ r.1, Q b) ∧ r₀.2 = r.2.map Failure.unlocated) Eq
      (fun _ => ¬ writable) (Outcome.collect (xs.map f)) (Outcome.collect ((xs.map m).map f)) := by
  have hall : List.Forall₂ (OutcomesBeside writable fun b b₀ => b₀ = g b ∧ Q b) (xs.map f)
      ((xs.map m).map f) := by
    rw [List.map_map, List.forall₂_map_left_iff, List.forall₂_map_right_iff]
    exact List.forall₂_same.mpr h
  refine (collect_beside hall).mono ?_
  rintro ⟨bs, fs⟩ ⟨bs₀, fs₀⟩ ⟨hbs, hfs⟩
  refine ⟨⟨eq_map_of_forall₂ (hbs.imp fun _ _ h => h.1), ?_⟩, hfs⟩
  exact forall_of_forall₂ (List.Forall₂.flip (R := fun b₀ b => b₀ = g b ∧ Q b) hbs) fun _ _ h => h.2

/-- **Lowering with and without locations.**  The same declarations are refused for the same
reasons, and the bindings differ in their comments alone, each of which is the comment for a location
or empty. -/
theorem lower_beside (hP : P "") {h : Decl.Header} (hl : ∀ l ∈ h.locations, Known P writable l) :
    Paired (fun l l₀ => l₀ = l.unlocated ∧ l.bindings.Commented P) Eq (fun _ => ¬ writable)
      (lower o h) (lower o h.unlocated) := by
  simp only [Decl.Header.locations, List.forall_mem_append, List.forall_mem_flatMap] at hl
  obtain ⟨⟨⟨⟨⟨⟨h₁, h₂⟩, h₃⟩, h₄⟩, h₅⟩, h₆⟩, h₇⟩ := hl
  have functions := section_beside (f := Outcome.ofFunction o) (m := Decl.Function.unlocated)
    (g := Function.uncommented) (Q := fun b => P b.comment) fun f hf =>
      outcome_beside (lowerFunction_beside hP (h₁ f hf)) .function f.name f.location
  have functionPointers := section_beside (f := Outcome.ofFunctionPointer o)
    (m := Decl.FunctionPointer.unlocated) (g := FunctionPointer.uncommented)
    (Q := fun b => P b.comment) fun p hp =>
      outcome_beside (lowerFunctionPointer_beside hP (h₂ p hp)) .functionPointer p.name p.location
  have records := section_beside (f := Outcome.ofRecord o) (m := Decl.Record.unlocated)
    (g := Struct.uncommented) (Q := Struct.Commented P) fun r hr => by
      have hb := outcome_beside (lowerRecord_beside (o := o) hP r (h₃ r hr)) .record r.name r.location
      cases r
      exact hb
  have aliases := section_beside (f := Outcome.ofAlias o) (m := Decl.Alias.unlocated)
    (g := Struct.uncommented) (Q := Struct.Commented P) fun a ha =>
      outcome_beside (singleField_beside hP (h₆ a ha)) .typedef a.name a.location
  have opaquePointers := section_beside (f := Outcome.ofOpaquePointer o)
    (m := Decl.OpaquePointer.unlocated) (g := Struct.uncommented) (Q := Struct.Commented P)
    fun p hp => outcome_beside (singleField_beside hP (h₄ p hp)) .opaquePointer p.name p.location
  have opaqueTypes := section_beside (f := Outcome.ofOpaqueType) (m := Decl.OpaqueType.unlocated)
    (g := OpaqueStruct.uncommented) (Q := fun b => P b.comment) fun t ht =>
      outcome_beside (lowerOpaqueType_beside hP (h₅ t ht)) .opaqueType t.name t.location
  have enumerations := section_beside (f := Outcome.ofEnumeration o)
    (m := Decl.Enumeration.unlocated) (g := Enumeration.uncommented)
    (Q := fun b => P b.comment) fun e he =>
      outcome_beside (lowerEnumeration_beside hP (h₇ e he)) .enumeration e.name e.location
  -- The sections come one after the other; the structs are those of three sections together.
  refine functions.bind ?_
  rintro ⟨fs, e₁⟩ ⟨_, _⟩ ⟨⟨rfl, hfs⟩, rfl⟩
  refine functionPointers.bind ?_
  rintro ⟨ps, e₂⟩ ⟨_, _⟩ ⟨⟨rfl, hps⟩, rfl⟩
  refine records.bind ?_
  rintro ⟨rs, e₃⟩ ⟨_, _⟩ ⟨⟨rfl, hrs⟩, rfl⟩
  refine aliases.bind ?_
  rintro ⟨as, e₄⟩ ⟨_, _⟩ ⟨⟨rfl, has⟩, rfl⟩
  refine opaquePointers.bind ?_
  rintro ⟨os, e₅⟩ ⟨_, _⟩ ⟨⟨rfl, hos⟩, rfl⟩
  refine opaqueTypes.bind ?_
  rintro ⟨ts, e₆⟩ ⟨_, _⟩ ⟨⟨rfl, hts⟩, rfl⟩
  refine enumerations.bind ?_
  rintro ⟨es, e₇⟩ ⟨_, _⟩ ⟨⟨rfl, hes⟩, rfl⟩
  refine .ok ⟨?_, ⟨hfs, hps, ?_, hts, hes⟩⟩
  · simp only [Lowered.unlocated, Bindings.uncommented, List.map_append]
  · exact List.forall_mem_append.mpr ⟨List.forall_mem_append.mpr ⟨hrs, has⟩, hos⟩

end Lowering

end Interop.Binding
