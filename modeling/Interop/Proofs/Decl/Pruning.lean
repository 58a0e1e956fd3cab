import Interop.Decl.ModelFile
import Interop.Proofs.Binding.Lowering
import Interop.Proofs.Decl.Describing
import Interop.Proofs.Schema.Fits

/-!
# Leaving out declarations

A document without some of the items of its sections (`without`) is still a document of the right
shape, and describes the header without these declarations (`ofValue_without`).  Where the ones that
are left out are those that cannot be bound, the bindings stay the same and nothing fails
(`lower_bindable`).
-/

set_option autoImplicit false

namespace Interop.Binding

open Decl (Header Gap)
open Decl.Document (each itemEntries)
open Value (Entries)

/-! ## Headers -/

/-- The header with those of its declarations that satisfy `p`. -/
def restrict (p : Declaration → Bool) (h : Header) : Header where
  functions := h.functions.filter fun f => p (.function f)
  functionPointers := h.functionPointers.filter fun f => p (.functionPointer f)
  records := h.records.filter fun r => p (.record r)
  opaquePointers := h.opaquePointers.filter fun f => p (.opaquePointer f)
  opaqueTypes := h.opaqueTypes.filter fun t => p (.opaqueType t)
  aliases := h.aliases.filter fun a => p (.typedef a)
  enumerations := h.enumerations.filter fun e => p (.enumeration e)

theorem declarations_restrict (p : Declaration → Bool) (h : Header) :
    declarations (restrict p h) = (declarations h).filter p := by
  simp only [declarations, restrict, List.filter_append, List.filter_map, Function.comp_def]

/-- What cannot be bound is not among the bindings. -/
theorem boundOf_filter {α β : Type} {o : Options} {f : α → Outcome β} {g : β → Bound}
    (c : α → Declaration) (hc : ∀ x, (c x).outcome o = (f x).map g) (xs : List α) :
    boundOf f (xs.filter fun x => !(c x).fails o) = boundOf f xs := by
  unfold boundOf
  rw [List.filterMap_filter]
  refine List.filterMap_congr fun x _ => ?_
  unfold Declaration.fails
  rw [hc, Outcome.failure?_map]
  rcases f x with fault | (failure | b) <;> rfl

theorem lowered_bindable (o : Options) (h : Header) :
    lowered o (restrict (fun d => !d.fails o) h) = ⟨(lowered o h).bindings, []⟩ := by
  have hnone : (lowered o (restrict (fun d => !d.fails o) h)).failures = [] := by
    unfold lowered
    rw [declarations_restrict, List.filterMap_eq_nil_iff]
    intro d hd
    have hkept := (List.mem_filter.mp hd).2
    unfold Declaration.fails at hkept
    simpa using hkept
  have hbound : (lowered o (restrict (fun d => !d.fails o) h)).bindings
      = (lowered o h).bindings := by
    have h₁ := boundOf_filter .function (fun _ => rfl : ∀ f, _ = (Outcome.ofFunction o f).map _)
    have h₂ := boundOf_filter .functionPointer
      (fun _ => rfl : ∀ p, _ = (Outcome.ofFunctionPointer o p).map _)
    have h₃ := boundOf_filter .record (fun _ => rfl : ∀ r, _ = (Outcome.ofRecord o r).map _)
    have h₄ := boundOf_filter .typedef (fun _ => rfl : ∀ a, _ = (Outcome.ofAlias o a).map _)
    have h₅ := boundOf_filter .opaquePointer
      (fun _ => rfl : ∀ p, _ = (Outcome.ofOpaquePointer o p).map _)
    have h₆ := boundOf_filter .opaqueType
      (fun _ => rfl : ∀ t, Declaration.outcome o _ = (Outcome.ofOpaqueType t).map _)
    have h₇ := boundOf_filter .enumeration
      (fun _ => rfl : ∀ e, _ = (Outcome.ofEnumeration o e).map _)
    simp only [lowered, restrict, h₁, h₂, h₃, h₄, h₅, h₆, h₇]
  cases hl : lowered o (restrict (fun d => !d.fails o) h)
  rw [hl] at hnone hbound
  rw [← hbound, ← hnone]

/-- Lowering what can be bound gives the same bindings, and no failure. -/
theorem lower_bindable {o : Options} {h : Header} {l : Lowered} (hl : lower o h = .ok l) :
    lower o (restrict (fun d => !d.fails o) h) = .ok ⟨l.bindings, []⟩ := by
  obtain ⟨hall, rfl⟩ := lower_eq_ok.mp hl
  rw [← lowered_bindable]
  refine lower_of_returns fun d hd => hall d ?_
  rw [declarations_restrict] at hd
  exact (List.mem_filter.mp hd).1

/-! ## Documents -/

/-- The declaration that an item under a key of the document describes. -/
def Declaration.ofItem? (key : String) (item : Value) : Option Declaration :=
  let read {α : Type} (reader : Entries → Except Gap α) (c : α → Declaration) :=
    (itemEntries key item >>= reader).toOption.map c
  match key with
  | "function_externs" => read Decl.Document.function .function
  | "function_pointers" => read Decl.Document.functionPointer .functionPointer
  | "records" => (Decl.Document.record item).toOption.map .record
  | "opaque_pointers" => read Decl.Document.opaquePointer .opaquePointer
  | "opaque_data_types" => read Decl.Document.opaqueType .opaqueType
  | "alias_types" => read Decl.Document.typedef .typedef
  | "enums" => read Decl.Document.enumeration .enumeration
  | _ => none

/-- The items of a section without the declarations to drop. -/
def withoutItems (drop : Declaration → Bool) (key : String) : Value → Value
  | .list items => .list (items.filter fun item => !(Declaration.ofItem? key item).any drop)
  | v => v

/-- A document without the declarations to drop. -/
def without (drop : Declaration → Bool) : Value → Value
  | .table entries => .table (entries.map fun e => (e.1, withoutItems drop e.1 e.2))
  | v => v

variable {drop : Declaration → Bool} {entries : Entries}

theorem lookup_without (key : String) (entries : Entries) :
    Value.lookup key (entries.map fun e => (e.1, withoutItems drop e.1 e.2))
      = (Value.lookup key entries).map (withoutItems drop key) := by
  induction entries with
  | nil => rfl
  | cons e rest ih =>
    obtain ⟨k, v⟩ := e
    rw [List.map_cons, Value.lookup, Value.lookup]
    split
    · rename_i hk
      rw [hk]
      rfl
    · exact ih

theorem fits_without {v : Value} (h : Schema.Fits (.object .document) v) :
    Schema.Fits (.object .document) (without drop v) := by
  obtain ⟨entries, rfl, hshaped⟩ := Schema.fits_object.mp h
  refine Schema.fits_object.mpr ⟨_, rfl, ?_, ?_, ?_⟩
  · intro e he
    obtain ⟨e', he', rfl⟩ := List.mem_map.mp he
    exact hshaped.known e' he'
  · intro m hm hrequired
    obtain ⟨v, hv⟩ := hshaped.complete m hm hrequired
    exact ⟨_, by rw [lookup_without, hv]; rfl⟩
  · intro m hm v' hv'
    rw [lookup_without] at hv'
    obtain ⟨v, hv, rfl⟩ := Option.map_eq_some_iff.mp hv'
    have hfits := hshaped.fits m hm v hv
    have harray : ∃ shape, m.rule = .array shape := by
      fin_cases hm <;> exact ⟨_, rfl⟩
    obtain ⟨shape, hrule⟩ := harray
    rw [hrule] at hfits ⊢
    obtain ⟨items, rfl, hitems⟩ := Schema.fits_array.mp hfits
    exact Schema.fits_array.mpr ⟨_, rfl, fun item hitem => hitems item (List.mem_filter.mp hitem).1⟩

/-- Reading what is left of a section gives what is left of its declarations. -/
theorem each_without {α : Type} {read : Entries → Except Gap α} {key : String}
    (c : α → Declaration)
    (hread : ∀ item a, itemEntries key item >>= read = .ok a →
      Declaration.ofItem? key item = some (c a))
    {xs : List α} (h : each read entries key = .ok xs) :
    each read (entries.map fun e => (e.1, withoutItems drop e.1 e.2)) key
      = .ok (xs.filter fun x => !drop (c x)) := by
  unfold each at h ⊢
  rw [lookup_without]
  cases hlookup : Value.lookup key entries with
  | none =>
    rw [hlookup] at h
    cases h
    rfl
  | some v =>
    rw [hlookup] at h
    cases v with
    | list items =>
      refine mapM_filter (fun item a ha => ?_) h
      rw [hread item a ha]
      rfl
    | _ => cases h

theorem records_without {xs : List Decl.Record} (h : Decl.Document.records entries = .ok xs) :
    Decl.Document.records (entries.map fun e => (e.1, withoutItems drop e.1 e.2))
      = .ok (xs.filter fun x => !drop (.record x)) := by
  unfold Decl.Document.records at h ⊢
  rw [lookup_without]
  cases hlookup : Value.lookup "records" entries with
  | none =>
    rw [hlookup] at h
    cases h
    rfl
  | some v =>
    rw [hlookup] at h
    cases v with
    | list items =>
      have hitems : items.mapM Decl.Document.record = .ok xs := by
        rw [← Decl.Document.recordItems_eq]
        exact h
      show Decl.Document.recordItems (items.filter _) = _
      rw [Decl.Document.recordItems_eq]
      refine mapM_filter (fun item a ha => ?_) hitems
      show (!((Decl.Document.record item).toOption.map Declaration.record).any drop) = _
      rw [ha]
      rfl
    | _ => cases h

theorem header_without {h : Header} (hread : Decl.Document.header entries = .ok h) :
    Decl.Document.header (entries.map fun e => (e.1, withoutItems drop e.1 e.2))
      = .ok (restrict (fun d => !drop d) h) := by
  unfold Decl.Document.header at hread ⊢
  obtain ⟨functions, h₁, hread⟩ := bind_eq_ok.mp hread
  obtain ⟨functionPointers, h₂, hread⟩ := bind_eq_ok.mp hread
  obtain ⟨records, h₃, hread⟩ := bind_eq_ok.mp hread
  obtain ⟨opaquePointers, h₄, hread⟩ := bind_eq_ok.mp hread
  obtain ⟨opaqueTypes, h₅, hread⟩ := bind_eq_ok.mp hread
  obtain ⟨aliases, h₆, hread⟩ := bind_eq_ok.mp hread
  obtain ⟨enumerations, h₇, hread⟩ := bind_eq_ok.mp hread
  cases hread
  have hitem {α : Type} {key : String} {read : Entries → Except Gap α} {c : α → Declaration}
      (hkey : ∀ item, Declaration.ofItem? key item
        = (itemEntries key item >>= read).toOption.map c) (item : Value) (a : α)
      (ha : itemEntries key item >>= read = .ok a) :
      Declaration.ofItem? key item = some (c a) := by
    rw [hkey, ha]
    rfl
  rw [each_without .function (hitem fun _ => rfl) h₁,
    each_without .functionPointer (hitem fun _ => rfl) h₂, records_without h₃,
    each_without .opaquePointer (hitem fun _ => rfl) h₄,
    each_without .opaqueType (hitem fun _ => rfl) h₅,
    each_without .typedef (hitem fun _ => rfl) h₆,
    each_without .enumeration (hitem fun _ => rfl) h₇]
  rfl

/-- A document without some declarations describes the header without them. -/
theorem ofValue_without {v : Value} {h : Header} (hv : Header.ofValue v = .ok h) :
    Header.ofValue (without drop v) = .ok (restrict (fun d => !drop d) h) := by
  unfold Header.ofValue at hv ⊢
  cases hcheck : Schema.check v with
  | some violation =>
    rw [hcheck] at hv
    cases hv
  | none =>
    rw [Schema.check_eq_none.mpr (fits_without (Schema.check_eq_none.mp hcheck))]
    rw [hcheck] at hv
    cases v with
    | table entries =>
      cases hread : Decl.Document.header entries with
      | error gap =>
        have hgap : itemEntries "" (.table entries) >>= Decl.Document.header = .error gap := hread
        rw [hgap] at hv
        cases hv
      | ok h' =>
        have hheader : itemEntries "" (.table entries) >>= Decl.Document.header = .ok h' := hread
        rw [hheader] at hv
        obtain rfl : h' = h := Except.ok.inj hv
        have hrest : itemEntries "" (without drop (.table entries)) >>= Decl.Document.header
            = .ok (restrict (fun d => !drop d) h') := header_without hread
        rw [hrest]
    | _ => cases hv

end Interop.Binding

/-! ## Files -/

namespace Interop.Decl

/-- The bytes are a text, and the text is JSON for the value. -/
def Spells (bytes : Text.Bytes) (v : Value) : Prop :=
  ∃ text, Text.Utf8.decode bytes = .ok text ∧ Json.read (Text.universalNewlines text) = .ok v

theorem Spells.unique {bytes : Text.Bytes} {v v' : Value} (h : Spells bytes v)
    (h' : Spells bytes v') : v = v' := by
  obtain ⟨text, hdecode, hread⟩ := h
  obtain ⟨text', hdecode', hread'⟩ := h'
  rw [hdecode] at hdecode'
  cases hdecode'
  exact Except.ok.inj (hread.symm.trans hread')

theorem Spells.ofBytes {bytes : Text.Bytes} {v : Value} (h : Spells bytes v) (path : List Char) :
    Header.ofBytes path bytes = (Header.ofValue v).mapError .document := by
  obtain ⟨text, hdecode, hread⟩ := h
  unfold Header.ofBytes Header.ofText
  rw [hdecode]
  dsimp only
  rw [hread]

/-- A header that was read from bytes is that of the document they spell. -/
theorem exists_spells {path : List Char} {bytes : Text.Bytes} {h : Header}
    (hbytes : Header.ofBytes path bytes = .ok h) :
    ∃ v, Spells bytes v ∧ Header.ofValue v = .ok h := by
  unfold Header.ofBytes at hbytes
  split at hbytes
  · cases hbytes
  rename_i text hdecode
  unfold Header.ofText at hbytes
  split at hbytes
  · rename_i v hread
    exact ⟨v, ⟨text, hdecode, hread⟩, mapError_eq_ok.mp hbytes⟩
  · cases hbytes
  · cases hbytes
  · cases hbytes

end Interop.Decl
