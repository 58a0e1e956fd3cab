import Interop.Proofs.Decl.Describing
import Interop.Proofs.Decl.Reading
import Interop.Proofs.Schema.Message
import Interop.Proofs.Schema.Semantics

/-!
# Loading a document

The schema document and the readers of declarations are two descriptions of one format.  They agree:
a document that the schema accepts describes a header, which is what loading returns, and every other
document is refused with a violation (`loading_agrees`).  What the schema asks of numbers and names
beyond their kind holds of every header that is loaded (`Header.Sound`).
-/

set_option autoImplicit false

namespace Interop.Number

/-- The value is a natural number, in either form. -/
def Natural (n : Number) : Prop := ∃ k : Nat, n.equal (.int k) = true

theorem natural_of_isWhole {n : Number} (hwhole : n.isWhole = true) (hsign : n.less 0 = false) :
    n.Natural := by
  cases n with
  | int i =>
    have hnonneg : 0 ≤ i := by
      rw [show (0 : Number) = .int 0 from rfl] at hsign
      by_contra hneg
      have hlt : compare i 0 = .lt := Int.compare_eq_lt.mpr (by omega)
      simp [less, compare?, hlt] at hsign
    refine ⟨i.toNat, ?_⟩
    rw [Int.toNat_of_nonneg hnonneg]
    simp [equal, compare?]
  | double x =>
    obtain ⟨num, den, hratio⟩ : ∃ num den, x.toRatio? = some (num, den) := by
      unfold isWhole Binary64.isWhole at hwhole
      cases hratio : x.toRatio? with
      | none => simp [hratio] at hwhole
      | some r => exact ⟨r.1, r.2, rfl⟩
    have hcompare (k : Int) :
        (Number.double x).compare? (.int k) = some (compare num (k * den)) := by
      unfold compare? Binary64.compareRatio
      cases x with
      | finite s m e => simp [hratio]
      | nan => cases hratio
      | infinite s => cases hratio
    have hdvd : (den : Int) ∣ num := by
      simp only [isWhole, Binary64.isWhole, hratio, beq_iff_eq] at hwhole
      exact Int.dvd_of_emod_eq_zero hwhole
    have hnonneg : 0 ≤ num := by
      by_contra hneg
      have hlt : compare num 0 = .lt := Int.compare_eq_lt.mpr (by omega)
      rw [less, show (0 : Number) = .int 0 from rfl, hcompare] at hsign
      simp [hlt] at hsign
    refine ⟨(num / den).toNat, ?_⟩
    rw [equal, hcompare, Int.toNat_of_nonneg (Int.ediv_nonneg hnonneg (Int.natCast_nonneg _)),
      Int.ediv_mul_cancel hdvd]
    simp

end Interop.Number

namespace Interop.Decl

open Schema (Shape Rule Fits Accepts)
open Document

/-! ## Sound headers -/

def Location.Sound (l : Location) : Prop := l.line.Natural

structure TypeUse.Sound (t : TypeUse) : Prop where
  name : t.name ≠ ""
  sizeOf : t.sizeOf.Natural
  alignOf : t.alignOf.Natural
  arraySize : ∀ n ∈ t.arraySize, n.Natural

/-- The name of a parameter may be empty: C leaves it out. -/
structure Parameter.Sound (p : Parameter) : Prop where
  location : ∀ l ∈ p.location, l.Sound
  type : p.type.Sound

structure Function.Sound (f : Function) : Prop where
  name : f.name ≠ ""
  location : ∀ l ∈ f.location, l.Sound
  callingConvention : f.callingConvention = .c ∨ f.callingConvention = .unknown
  returnType : f.returnType.Sound
  parameters : ∀ p ∈ f.parameters, p.Sound

structure FunctionPointer.Sound (f : FunctionPointer) : Prop where
  name : f.name ≠ ""
  location : ∀ l ∈ f.location, l.Sound
  type : f.type.Sound

structure Field.Sound (f : Field) : Prop where
  name : f.name ≠ ""
  location : ∀ l ∈ f.location, l.Sound
  type : f.type.Sound
  offset : f.offset.Natural
  padding : f.padding.Natural

inductive Record.Sound : Record → Prop
  | mk {r : Record}
      (name : r.name ≠ "")
      (location : ∀ l ∈ r.location, l.Sound)
      (type : r.type.Sound)
      (fields : ∀ f ∈ r.fields, f.Sound)
      (nested : ∀ r' ∈ r.nested, Record.Sound r') :
      Record.Sound r

structure OpaquePointer.Sound (p : OpaquePointer) : Prop where
  name : p.name ≠ ""
  location : ∀ l ∈ p.location, l.Sound
  pointerType : p.pointerType.Sound

structure OpaqueType.Sound (t : OpaqueType) : Prop where
  name : t.name ≠ ""
  location : ∀ l ∈ t.location, l.Sound

structure Alias.Sound (a : Alias) : Prop where
  name : a.name ≠ ""
  location : ∀ l ∈ a.location, l.Sound
  underlyingType : a.underlyingType.Sound

structure EnumMember.Sound (m : EnumMember) : Prop where
  name : m.name ≠ ""
  location : ∀ l ∈ m.location, l.Sound

structure Enumeration.Sound (e : Enumeration) : Prop where
  name : e.name ≠ ""
  location : ∀ l ∈ e.location, l.Sound
  integerType : e.integerType.Sound
  members : ∀ m ∈ e.members, m.Sound

/-- Sizes, offsets, counts and lines are natural numbers and names are not empty, at any depth. -/
structure Header.Sound (h : Header) : Prop where
  functions : ∀ f ∈ h.functions, f.Sound
  functionPointers : ∀ f ∈ h.functionPointers, f.Sound
  records : ∀ r ∈ h.records, r.Sound
  opaquePointers : ∀ p ∈ h.opaquePointers, p.Sound
  opaqueTypes : ∀ t ∈ h.opaqueTypes, t.Sound
  aliases : ∀ a ∈ h.aliases, a.Sound
  enumerations : ∀ e ∈ h.enumerations, e.Sound

/-! ## What the shapes ask of single parts -/

section Parts

variable {shape inner : Shape} {key : String} {v w : Value} {rule : Rule}

theorem fits_member {m : Schema.Member} (hfits : Fits (.object shape) v) (hm : m ∈ shape.members)
    (hw : v.member? m.key = some w) : Fits m.rule w := by
  obtain ⟨entries, rfl, hshaped⟩ := Schema.fits_object.mp hfits
  exact hshaped.fits m hm w hw

theorem text_ne_empty {s : String} (hfits : Fits (.object shape) v)
    (hm : Schema.required key .filledText ∈ shape.members)
    (hs : v.member? key = some (.text s)) : s ≠ "" := by
  obtain ⟨s', hs', hne⟩ := Schema.fits_filledText.mp (fits_member hfits hm hs)
  cases hs'
  exact hne

theorem number_natural {n : Number} (hfits : Fits (.object shape) v)
    (hm : Schema.required key .natural ∈ shape.members)
    (hn : v.member? key = some (.number n)) : n.Natural := by
  obtain ⟨n', hn', hwhole, hsign⟩ := Schema.fits_natural.mp (fits_member hfits hm hn)
  cases hn'
  exact Number.natural_of_isWhole hwhole hsign

/-- The items of a list under a key fit the shape of the list. -/
theorem fits_items {items : List Value} (hfits : Fits (.object shape) v)
    (hm : Schema.optional key (.array inner) ∈ shape.members)
    (hitems : (v.member? key).getD (.list []) = .list items) :
    ∀ w ∈ items, Fits (.object inner) w := by
  cases hmember : v.member? key with
  | none =>
    rw [hmember] at hitems
    cases hitems
    simp
  | some list =>
    rw [hmember] at hitems
    obtain rfl : list = .list items := hitems
    obtain ⟨items', hlist, hall⟩ := Schema.fits_array.mp (fits_member hfits hm hmember)
    cases hlist
    exact hall

theorem parts_sound {α : Type} {R : Value → α → Prop} {S : α → Prop} {xs : List α}
    (hfits : Fits (.object shape) v) (hxs : Parts R key v xs)
    (hm : Schema.optional key (.array inner) ∈ shape.members)
    (hsound : ∀ {w}, Fits (.object inner) w → ∀ x, R w x → S x) : ∀ x ∈ xs, S x := by
  obtain ⟨items, hitems, hR⟩ := hxs
  have hpairs : List.Forall₂ (fun w x => w ∈ items ∧ R w x) items xs :=
    (List.forall₂_and_left _ _).mpr ⟨fun w hw => hw, hR⟩
  refine forall_of_forall₂ hpairs fun w x ⟨hw, hx⟩ => ?_
  exact hsound (fits_items hfits hm hitems w hw) x hx

end Parts

/-! ## Described declarations of the right shape -/

section Described

variable {v : Value} {shape : Shape}

theorem location_sound {l : Option Location} (hfits : Fits (.object shape) v)
    (hl : HasLocation v l) (hm : Schema.required "location" (.object .location) ∈ shape.members) :
    ∀ l' ∈ l, l'.Sound := by
  obtain ⟨place, rfl, w, hw, hplace⟩ := hl
  intro l' hl'
  cases hl'
  exact number_natural (fits_member hfits hm hw) (by decide) hplace.line

theorem isType_sound {t : TypeUse} (hfits : Fits (.object .type) v) (ht : IsType v t) :
    t.Sound where
  name := text_ne_empty hfits (by decide) ht.name
  sizeOf := number_natural hfits (by decide) ht.sizeOf
  alignOf := number_natural hfits (by decide) ht.alignOf
  arraySize := by
    intro n hn
    have hcount := ht.arraySize
    rw [Option.mem_def.mp hn] at hcount
    cases hmember : v.member? "array_size" with
    | none => simp [hmember, countValue] at hcount
    | some w =>
      have hw : Fits .naturalOrNull w :=
        fits_member (m := Schema.optional "array_size" .naturalOrNull) hfits (by decide) hmember
      rw [hmember] at hcount
      obtain rfl : w = .number n := hcount
      obtain hnull | ⟨n', hn', hwhole, hsign⟩ := Schema.fits_naturalOrNull.mp hw
      · cases hnull
      · cases hn'
        exact Number.natural_of_isWhole hwhole hsign

theorem type_sound {key : String} {t : TypeUse} (hfits : Fits (.object shape) v)
    (ht : Part IsType key v t) (hm : Schema.required key (.object .type) ∈ shape.members) :
    t.Sound := by
  obtain ⟨w, hw, ht⟩ := ht
  exact isType_sound (fits_member hfits hm hw) ht

theorem parameter_sound (hfits : Fits (.object .parameter) v) (p : Parameter) (hp : IsParameter v p) :
    p.Sound where
  location := location_sound hfits hp.location (by decide)
  type := type_sound hfits hp.type (by decide)

theorem function_sound (hfits : Fits (.object .function) v) (f : Function) (hf : IsFunction v f) :
    f.Sound where
  name := text_ne_empty hfits (by decide) hf.name
  location := location_sound hfits hf.location (by decide)
  callingConvention := by
    obtain ⟨w, hw, hconvention⟩ := hf.callingConvention
    generalize f.callingConvention = called at hconvention
    have hword : Fits (.oneOf ["C", "Unknown"]) w :=
      fits_member (m := Schema.required "calling_convention" (.oneOf ["C", "Unknown"]))
        hfits (by decide) hw
    obtain ⟨s, rfl, hs⟩ := Schema.fits_oneOf.mp hword
    cases hconvention with
    | c => exact .inl rfl
    | unknown => exact .inr rfl
    | other hc hunknown => simp [hc, hunknown] at hs
  returnType := type_sound hfits hf.returnType (by decide)
  parameters := parts_sound hfits hf.parameters (by decide) parameter_sound

theorem functionPointer_sound (hfits : Fits (.object .functionPointer) v) (f : FunctionPointer)
    (hf : IsFunctionPointer v f) : f.Sound where
  name := text_ne_empty hfits (by decide) hf.name
  location := location_sound hfits hf.location (by decide)
  type := type_sound hfits hf.type (by decide)

theorem field_sound (hfits : Fits (.object .field) v) (f : Field) (hf : IsField v f) :
    f.Sound where
  name := text_ne_empty hfits (by decide) hf.name
  location := location_sound hfits hf.location (by decide)
  type := type_sound hfits hf.type (by decide)
  offset := number_natural hfits (by decide) hf.offset
  padding := number_natural hfits (by decide) hf.padding

/-- The induction is on the size of the value, as when the record is read. -/
theorem record_sound (hfits : Fits (.object .record) v) (r : Record) (hr : IsRecord v r) :
    r.Sound := by
  induction hsize : sizeOf v using Nat.strongRecOn generalizing v r with
  | _ size ih =>
    obtain ⟨hname, hlocation, htype, hfields, hitems, hnested⟩ := hr
    constructor
    case name => exact text_ne_empty hfits (by decide) hname
    case location => exact location_sound hfits hlocation (by decide)
    case type => exact type_sound hfits htype (by decide)
    case fields => exact parts_sound hfits hfields (by decide) field_sound
    case nested =>
      have hpairs := (List.forall₂_and_left _ _).mpr ⟨fun w hw => hw, hnested⟩
      refine forall_of_forall₂ hpairs fun w r' ⟨hw, hr'⟩ => ?_
      have hlt := Value.sizeOf_member?_item_lt hitems hw
      exact ih (sizeOf w) (by omega) (fits_items hfits (by decide) hitems w hw) r' hr' rfl

theorem opaquePointer_sound (hfits : Fits (.object .opaquePointer) v) (p : OpaquePointer)
    (hp : IsOpaquePointer v p) : p.Sound where
  name := text_ne_empty hfits (by decide) hp.name
  location := location_sound hfits hp.location (by decide)
  pointerType := type_sound hfits hp.pointerType (by decide)

theorem opaqueType_sound (hfits : Fits (.object .opaqueType) v) (t : OpaqueType)
    (ht : IsOpaqueType v t) : t.Sound where
  name := text_ne_empty hfits (by decide) ht.name
  location := location_sound hfits ht.location (by decide)

theorem alias_sound (hfits : Fits (.object .typedef) v) (a : Alias) (ha : IsAlias v a) :
    a.Sound where
  name := text_ne_empty hfits (by decide) ha.name
  location := location_sound hfits ha.location (by decide)
  underlyingType := type_sound hfits ha.underlyingType (by decide)

theorem enumMember_sound (hfits : Fits (.object .enumMember) v) (m : EnumMember)
    (hm : IsEnumMember v m) : m.Sound where
  name := text_ne_empty hfits (by decide) hm.name
  location := location_sound hfits hm.location (by decide)

theorem enumeration_sound (hfits : Fits (.object .enumeration) v) (e : Enumeration)
    (he : IsEnumeration v e) : e.Sound where
  name := text_ne_empty hfits (by decide) he.name
  location := location_sound hfits he.location (by decide)
  integerType := type_sound hfits he.integerType (by decide)
  members := parts_sound hfits he.members (by decide) enumMember_sound

theorem header_sound {h : Header} (hfits : Fits (.object .document) v) (hh : IsHeader v h) :
    h.Sound where
  functions := parts_sound hfits hh.functions (by decide) function_sound
  functionPointers := parts_sound hfits hh.functionPointers (by decide) functionPointer_sound
  records := parts_sound hfits hh.records (by decide) record_sound
  opaquePointers := parts_sound hfits hh.opaquePointers (by decide) opaquePointer_sound
  opaqueTypes := parts_sound hfits hh.opaqueTypes (by decide) opaqueType_sound
  aliases := parts_sound hfits hh.aliases (by decide) alias_sound
  enumerations := parts_sound hfits hh.enumerations (by decide) enumeration_sound

end Described

/-! ## Loading -/

/-- Loading returns the header that the document describes, if the document has the right shape. -/
theorem ofValue_eq_ok {v : Value} {h : Header} :
    Header.ofValue v = .ok h ↔ Schema.check v = none ∧ IsHeader v h := by
  unfold Header.ofValue
  cases hcheck : Schema.check v with
  | some violation => simp
  | none =>
    obtain ⟨entries, rfl, -⟩ := Schema.fits_object.mp (Schema.check_eq_none.mp hcheck)
    have hread : (itemEntries "" (.table entries) >>= header) = header entries := rfl
    rw [hread, ← header_eq_ok]
    cases header entries with
    | error gap => simp
    | ok h' => simp

/-- **The schema document and the readers agree.**  Loading returns exactly the headers that
documents accepted by the schema describe; every accepted document describes one, with sound numbers
and names; and every other document is refused with a violation, which can be told if all integers of
the document can be written. -/
theorem loading_agrees (v : Value) :
    (∀ h, Header.ofValue v = .ok h ↔ Accepts Schema.document Schema.document v ∧ IsHeader v h)
      ∧ (Accepts Schema.document Schema.document v → ∃ h, Header.ofValue v = .ok h ∧ h.Sound)
      ∧ (¬ Accepts Schema.document Schema.document v →
          ∃ violation, Header.ofValue v = .error (.invalid violation)
            ∧ (v.Short → ∃ message, violation.message = .ok message)) := by
  rw [Schema.accepts_document_iff]
  refine ⟨fun h => ofValue_eq_ok, fun hcheck => ?_, fun hcheck => ?_⟩
  · obtain ⟨h, hh⟩ := exists_ofValue hcheck
    exact ⟨h, hh, header_sound (Schema.check_eq_none.mp hcheck) (ofValue_eq_ok.mp hh).2⟩
  · obtain ⟨violation, hviolation⟩ := Option.ne_none_iff_exists'.mp hcheck
    refine ⟨violation, ?_, fun hshort => Schema.message_of_short hshort hviolation⟩
    rw [Header.ofValue, hviolation]

/-- A document with one record, which has one field and another record nested in it; the inner one
is as long as the argument says. -/
def nestedDocument (size : Int) : Value :=
  let place : Value :=
    .table [("kind", .text "struct"), ("file_name", .text "a.h"), ("line", .int 1)]
  let type (name : String) (size : Int) : Value :=
    .table [("name", .text name), ("size_of", .int size), ("align_of", .int 4)]
  let inner : Value :=
    .table [("name", .text "inner"), ("location", place), ("type", type "inner" size)]
  let field : Value :=
    .table [("name", .text "x"), ("location", place), ("type", type "inner" size),
      ("offset", .int 0), ("padding", .int 0)]
  .table [("records", .list [.table [("name", .text "outer"), ("location", place),
    ("type", type "outer" size), ("fields", .list [field]), ("nested_records", .list [inner])]])]

theorem nestedDocument_loads :
    (∃ h, Header.ofValue (nestedDocument 4) = .ok h ∧ h.Sound)
      ∧ ∃ violation, Header.ofValue (nestedDocument (-4)) = .error (.invalid violation) := by
  have haccepted : Accepts Schema.document Schema.document (nestedDocument 4) :=
    Schema.accepts_document_iff.mpr rfl
  have hrefused : ¬ Accepts Schema.document Schema.document (nestedDocument (-4)) := by
    rw [Schema.accepts_document_iff]
    exact Option.isSome_iff_ne_none.mp rfl
  obtain ⟨violation, hviolation, -⟩ := (loading_agrees (nestedDocument (-4))).2.2 hrefused
  exact ⟨(loading_agrees (nestedDocument 4)).2.1 haccepted, violation, hviolation⟩

end Interop.Decl
