import Interop.Decl.Document
import Interop.Proofs.Failing
import Interop.Proofs.Value.Parts

/-!
# What a document describes

A document describes a declaration when every part of the declaration stands under its own key, and
what has no key there has the value that goes without saying.  The readers find exactly this: each
returns a declaration just when its object describes it (`header_eq_ok`).
-/

set_option autoImplicit false

namespace Interop.Decl.Document

open Value (Entries)

/-! ## Parts of an object -/

section Parts

variable {α : Type} (R : Value → α → Prop) (key : String)

/-- What is under the key describes `x`. -/
def Part (v : Value) (x : α) : Prop := ∃ w, v.member? key = some w ∧ R w x

/-- The items under the key describe the list one by one; without the key the list is empty. -/
def Parts (v : Value) (xs : List α) : Prop :=
  ∃ items, (v.member? key).getD (.list []) = .list items ∧ List.Forall₂ R items xs

end Parts

/-- How a count is written that may be absent. -/
def countValue : Option Number → Value
  | some n => .number n
  | none => .null

/-! ## Declarations -/

structure IsLocation (v : Value) (l : Location) : Prop where
  kind : v.member? "kind" = some (.text l.kind)
  fileName : v.member? "file_name" = some (.text l.fileName)
  line : v.member? "line" = some (.number l.line)
  dateTime : (v.member? "date_time").getD (.text "") = .text l.dateTime

/-- Every declaration of a document has its location. -/
def HasLocation (v : Value) (l : Option Location) : Prop :=
  ∃ place, l = some place ∧ Part IsLocation "location" v place

structure IsType (v : Value) (t : TypeUse) : Prop where
  name : v.member? "name" = some (.text t.name)
  nativeName : (v.member? "original_name").getD (.text t.name) = .text t.nativeName
  sizeOf : v.member? "size_of" = some (.number t.sizeOf)
  alignOf : v.member? "align_of" = some (.number t.alignOf)
  arraySize : (v.member? "array_size").getD .null = countValue t.arraySize
  isSystem : (v.member? "is_system_type").getD (.bool false) = .bool t.isSystem

inductive IsConvention : Value → CallingConvention → Prop
  | c : IsConvention (.text "C") .c
  | unknown : IsConvention (.text "Unknown") .unknown
  | other {name : String} (hc : name ≠ "C") (hunknown : name ≠ "Unknown") :
      IsConvention (.text name) (.other name)

structure IsParameter (v : Value) (p : Parameter) : Prop where
  name : v.member? "name" = some (.text p.name)
  location : HasLocation v p.location
  type : Part IsType "type" v p.type
  isReadOnly : (v.member? "is_read_only").getD (.bool false) = .bool p.isReadOnly

structure IsFunction (v : Value) (f : Function) : Prop where
  name : v.member? "name" = some (.text f.name)
  location : HasLocation v f.location
  callingConvention : Part IsConvention "calling_convention" v f.callingConvention
  returnType : Part IsType "return_type" v f.returnType
  parameters : Parts IsParameter "parameters" v f.parameters

structure IsFunctionPointer (v : Value) (f : FunctionPointer) : Prop where
  name : v.member? "name" = some (.text f.name)
  location : HasLocation v f.location
  type : Part IsType "type" v f.type

structure IsField (v : Value) (f : Field) : Prop where
  name : v.member? "name" = some (.text f.name)
  location : HasLocation v f.location
  type : Part IsType "type" v f.type
  offset : v.member? "offset" = some (.number f.offset)
  padding : v.member? "padding" = some (.number f.padding)

/-- A record is described together with the records nested in it. -/
inductive IsRecord : Value → Record → Prop
  | mk {v : Value} {r : Record} {items : List Value}
      (name : v.member? "name" = some (.text r.name))
      (location : HasLocation v r.location)
      (type : Part IsType "type" v r.type)
      (fields : Parts IsField "fields" v r.fields)
      (nested : (v.member? "nested_records").getD (.list []) = .list items)
      (each : List.Forall₂ IsRecord items r.nested) :
      IsRecord v r

structure IsOpaquePointer (v : Value) (p : OpaquePointer) : Prop where
  name : v.member? "name" = some (.text p.name)
  location : HasLocation v p.location
  pointerType : Part IsType "pointer_type" v p.pointerType

structure IsOpaqueType (v : Value) (t : OpaqueType) : Prop where
  name : v.member? "name" = some (.text t.name)
  location : HasLocation v t.location

structure IsAlias (v : Value) (a : Alias) : Prop where
  name : v.member? "name" = some (.text a.name)
  location : HasLocation v a.location
  underlyingType : Part IsType "underlying_type" v a.underlyingType

structure IsEnumMember (v : Value) (m : EnumMember) : Prop where
  name : v.member? "name" = some (.text m.name)
  location : HasLocation v m.location
  value : v.member? "value" = some (.number m.value)

structure IsEnumeration (v : Value) (e : Enumeration) : Prop where
  name : v.member? "name" = some (.text e.name)
  location : HasLocation v e.location
  integerType : Part IsType "integer_type" v e.integerType
  members : Parts IsEnumMember "values" v e.members

structure IsHeader (v : Value) (h : Header) : Prop where
  functions : Parts IsFunction "function_externs" v h.functions
  functionPointers : Parts IsFunctionPointer "function_pointers" v h.functionPointers
  records : Parts IsRecord "records" v h.records
  opaquePointers : Parts IsOpaquePointer "opaque_pointers" v h.opaquePointers
  opaqueTypes : Parts IsOpaqueType "opaque_data_types" v h.opaqueTypes
  aliases : Parts IsAlias "alias_types" v h.aliases
  enumerations : Parts IsEnumeration "enums" v h.enumerations

/-! ## Readers of members -/

section Members

variable {entries : Entries} {key : String}

theorem text_eq_ok {s : String} :
    text entries key = .ok s ↔ (Value.table entries).member? key = some (.text s) := by
  rw [Value.member?_table, text]
  rcases Value.lookup key entries with _ | v
  · simp
  · cases v <;> simp

theorem textOr_eq_ok {default s : String} :
    textOr default entries key = .ok s
      ↔ ((Value.table entries).member? key).getD (.text default) = .text s := by
  rw [Value.member?_table, textOr]
  rcases Value.lookup key entries with _ | v
  · simp
  · cases v <;> simp

theorem number_eq_ok {n : Number} :
    number entries key = .ok n ↔ (Value.table entries).member? key = some (.number n) := by
  rw [Value.member?_table, number]
  rcases Value.lookup key entries with _ | v
  · simp
  · cases v <;> simp

theorem numberOrNull_eq_ok {n : Option Number} :
    numberOrNull entries key = .ok n
      ↔ ((Value.table entries).member? key).getD .null = countValue n := by
  rw [Value.member?_table, numberOrNull]
  rcases Value.lookup key entries with _ | v
  · cases n <;> simp [countValue]
  · cases v <;> cases n <;> simp [countValue]

theorem flag_eq_ok {b : Bool} :
    flag entries key = .ok b
      ↔ ((Value.table entries).member? key).getD (.bool false) = .bool b := by
  rw [Value.member?_table, flag]
  rcases Value.lookup key entries with _ | v
  · simp
  · cases v <;> simp

theorem object_eq_ok {inner : Entries} :
    object entries key = .ok inner ↔ (Value.table entries).member? key = some (.table inner) := by
  rw [Value.member?_table, object]
  rcases Value.lookup key entries with _ | v
  · simp
  · cases v <;> simp

variable {α : Type} {R : Value → α → Prop} {read : Entries → Except Gap α}

/-- Reading the object under a key. -/
theorem part_eq_ok (hread : ∀ inner x, read inner = .ok x ↔ R (.table inner) x)
    (htable : ∀ v x, R v x → ∃ inner, v = .table inner) {x : α} :
    (object entries key >>= read) = .ok x ↔ Part R key (.table entries) x := by
  rw [bind_eq_ok]
  constructor
  · rintro ⟨inner, hinner, hx⟩
    exact ⟨_, object_eq_ok.mp hinner, (hread inner x).mp hx⟩
  · rintro ⟨v, hv, hx⟩
    obtain ⟨inner, rfl⟩ := htable v x hx
    exact ⟨inner, object_eq_ok.mpr hv, (hread inner x).mpr hx⟩

theorem item_eq_ok (hread : ∀ inner x, read inner = .ok x ↔ R (.table inner) x)
    (htable : ∀ v x, R v x → ∃ inner, v = .table inner) {v : Value} {x : α} :
    (itemEntries key v >>= read) = .ok x ↔ R v x := by
  have hno (hv : ∀ inner, v ≠ .table inner) : ¬ R v x := by
    intro hx
    obtain ⟨inner, rfl⟩ := htable v x hx
    exact hv inner rfl
  cases v with
  | table inner => exact hread inner x
  | _ =>
    refine iff_of_false ?_ (hno (by simp))
    rintro ⟨⟩

/-- Reading the objects of a list. -/
theorem each_eq_ok (hread : ∀ inner x, read inner = .ok x ↔ R (.table inner) x)
    (htable : ∀ v x, R v x → ∃ inner, v = .table inner) {xs : List α} :
    each read entries key = .ok xs ↔ Parts R key (.table entries) xs := by
  have hitems (items : List Value) :
      (items.mapM fun v => itemEntries key v >>= read) = .ok xs ↔ List.Forall₂ R items xs := by
    rw [mapM_eq_ok]
    simp only [item_eq_ok hread htable]
  rw [each, Parts, Value.member?_table]
  rcases Value.lookup key entries with _ | v
  · simp
  · cases v with
    | list items => simp [hitems]
    | _ => simp

end Members

/-! ## Readers of declarations -/

section Readers

variable {entries : Entries}

theorem location_eq_ok {l : Option Location} :
    location entries = .ok l ↔ HasLocation (.table entries) l := by
  unfold location
  simp only [bind_eq_ok, object_eq_ok, text_eq_ok, number_eq_ok, textOr_eq_ok, pure_eq_ok,
    Except.ok.injEq]
  constructor
  · rintro ⟨inner, hinner, kind, hkind, fileName, hfile, line, hline, date, hdate, rfl⟩
    exact ⟨_, rfl, _, hinner, hkind, hfile, hline, hdate⟩
  · rintro ⟨place, rfl, v, hv, hplace⟩
    obtain ⟨inner, rfl⟩ := Value.exists_table_of_member? hplace.kind
    exact ⟨inner, hv, _, hplace.kind, _, hplace.fileName, _, hplace.line, _, hplace.dateTime, rfl⟩

theorem type_eq_ok {key : String} {t : TypeUse} :
    type entries key = .ok t ↔ Part IsType key (.table entries) t := by
  unfold type
  refine part_eq_ok (fun inner t => ?_) fun v t ht => Value.exists_table_of_member? ht.name
  simp only [bind_eq_ok, text_eq_ok, number_eq_ok, textOr_eq_ok, numberOrNull_eq_ok, flag_eq_ok,
    pure_eq_ok, Except.ok.injEq]
  constructor
  · rintro ⟨name, hname, native, hnative, size, hsize, align, halign, count, hcount, system,
      hsystem, rfl⟩
    exact ⟨hname, hnative, hsize, halign, hcount, hsystem⟩
  · rintro ⟨hname, hnative, hsize, halign, hcount, hsystem⟩
    exact ⟨_, hname, _, hnative, _, hsize, _, halign, _, hcount, _, hsystem, rfl⟩

theorem convention_eq_ok {called : CallingConvention} :
    convention entries = .ok called
      ↔ Part IsConvention "calling_convention" (.table entries) called := by
  unfold convention
  rw [bind_eq_ok]
  constructor
  · rintro ⟨word, hword, hc⟩
    refine ⟨_, text_eq_ok.mp hword, ?_⟩
    split at hc
    · cases hc
      exact .c
    · cases hc
      exact .unknown
    · rename_i hnotC hnotUnknown
      cases hc
      exact .other hnotC hnotUnknown
  · rintro ⟨v, hv, hc⟩
    cases hc with
    | c => exact ⟨_, text_eq_ok.mpr hv, rfl⟩
    | unknown => exact ⟨_, text_eq_ok.mpr hv, rfl⟩
    | other hnotC hnotUnknown =>
      refine ⟨_, text_eq_ok.mpr hv, ?_⟩
      split
      · exact absurd rfl hnotC
      · exact absurd rfl hnotUnknown
      · rfl

theorem parameter_eq_ok {p : Parameter} :
    parameter entries = .ok p ↔ IsParameter (.table entries) p := by
  unfold parameter
  simp only [bind_eq_ok, text_eq_ok, location_eq_ok, type_eq_ok, flag_eq_ok, pure_eq_ok,
    Except.ok.injEq]
  constructor
  · rintro ⟨name, hname, l, hl, t, ht, readOnly, hreadOnly, rfl⟩
    exact ⟨hname, hl, ht, hreadOnly⟩
  · rintro ⟨hname, hl, ht, hreadOnly⟩
    exact ⟨_, hname, _, hl, _, ht, _, hreadOnly, rfl⟩

theorem function_eq_ok {f : Function} :
    function entries = .ok f ↔ IsFunction (.table entries) f := by
  have hparameters {ps : List Parameter} : each parameter entries "parameters" = .ok ps
      ↔ Parts IsParameter "parameters" (.table entries) ps :=
    each_eq_ok (fun _ _ => parameter_eq_ok) fun _ _ hp => Value.exists_table_of_member? hp.name
  unfold function
  simp only [bind_eq_ok, text_eq_ok, location_eq_ok, convention_eq_ok, type_eq_ok, hparameters,
    pure_eq_ok, Except.ok.injEq]
  constructor
  · rintro ⟨name, hname, l, hl, called, hc, t, ht, ps, hps, rfl⟩
    exact ⟨hname, hl, hc, ht, hps⟩
  · rintro ⟨hname, hl, hc, ht, hps⟩
    exact ⟨_, hname, _, hl, _, hc, _, ht, _, hps, rfl⟩

theorem functionPointer_eq_ok {f : FunctionPointer} :
    functionPointer entries = .ok f ↔ IsFunctionPointer (.table entries) f := by
  unfold functionPointer
  simp only [bind_eq_ok, text_eq_ok, location_eq_ok, type_eq_ok, pure_eq_ok, Except.ok.injEq]
  constructor
  · rintro ⟨name, hname, l, hl, t, ht, rfl⟩
    exact ⟨hname, hl, ht⟩
  · rintro ⟨hname, hl, ht⟩
    exact ⟨_, hname, _, hl, _, ht, rfl⟩

theorem field_eq_ok {f : Field} : field entries = .ok f ↔ IsField (.table entries) f := by
  unfold field
  simp only [bind_eq_ok, text_eq_ok, location_eq_ok, type_eq_ok, number_eq_ok, pure_eq_ok,
    Except.ok.injEq]
  constructor
  · rintro ⟨name, hname, l, hl, t, ht, offset, hoffset, padding, hpadding, rfl⟩
    exact ⟨hname, hl, ht, hoffset, hpadding⟩
  · rintro ⟨hname, hl, ht, hoffset, hpadding⟩
    exact ⟨_, hname, _, hl, _, ht, _, hoffset, _, hpadding, rfl⟩

theorem recordItems_eq (items : List Value) : recordItems items = items.mapM record := by
  induction items with
  | nil => rfl
  | cons item items ih => rw [recordItems, List.mapM_cons, ih]

theorem recordList_eq_ok {v : Value} {rs : List Record} :
    recordList v = .ok rs ↔ ∃ items, v = .list items ∧ items.mapM record = .ok rs := by
  cases v with
  | list items => simp [recordList, recordItems_eq]
  | _ => simp [recordList]

theorem nestedRecords_eq_ok {rs : List Record} :
    nestedRecords entries = .ok rs
      ↔ ∃ items, ((Value.table entries).member? "nested_records").getD (.list []) = .list items
        ∧ items.mapM record = .ok rs := by
  rw [Value.member?_table]
  induction entries with
  | nil => simp [nestedRecords, Value.lookup]
  | cons e rest ih =>
    obtain ⟨k, v⟩ := e
    rw [nestedRecords, Value.lookup]
    split
    · exact recordList_eq_ok
    · exact ih

/-- The induction is on the size of the value: a nested record is an item of a part of it. -/
theorem record_eq_ok {v : Value} {r : Record} : record v = .ok r ↔ IsRecord v r := by
  induction hsize : sizeOf v using Nat.strongRecOn generalizing v r with
  | _ size ih =>
    cases v with
    | table entries =>
      have hitem {items : List Value}
          (hitems : ((Value.table entries).member? "nested_records").getD (.list []) = .list items)
          (w : Value) (hw : w ∈ items) (r : Record) : record w = .ok r ↔ IsRecord w r := by
        have hlt := Value.sizeOf_member?_item_lt hitems hw
        exact ih (sizeOf w) (by omega) rfl
      have hnested {items : List Value} {rs : List Record}
          (hitems : ((Value.table entries).member? "nested_records").getD (.list []) = .list items) :
          items.mapM record = .ok rs ↔ List.Forall₂ IsRecord items rs := by
        rw [mapM_eq_ok]
        exact forall₂_congr_of_mem (hitem hitems)
      have hfields {fs : List Field} : each field entries "fields" = .ok fs
          ↔ Parts IsField "fields" (.table entries) fs :=
        each_eq_ok (fun _ _ => field_eq_ok) fun _ _ hf => Value.exists_table_of_member? hf.name
      rw [record]
      simp only [bind_eq_ok, text_eq_ok, location_eq_ok, type_eq_ok, hfields, nestedRecords_eq_ok,
        pure_eq_ok, Except.ok.injEq]
      constructor
      · rintro ⟨name, hname, l, hl, t, ht, fs, hfs, rs, ⟨items, hitems, hrs⟩, rfl⟩
        exact ⟨hname, hl, ht, hfs, hitems, (hnested hitems).mp hrs⟩
      · rintro ⟨hname, hl, ht, hfs, hitems, hrs⟩
        cases r
        exact ⟨_, hname, _, hl, _, ht, _, hfs, _, ⟨_, hitems, (hnested hitems).mpr hrs⟩, rfl⟩
    | _ =>
      refine iff_of_false (by simp [record]) ?_
      rintro ⟨hname, -⟩
      cases hname

theorem records_eq_ok {rs : List Record} :
    records entries = .ok rs ↔ Parts IsRecord "records" (.table entries) rs := by
  have hitems (items : List Value) : items.mapM record = .ok rs ↔ List.Forall₂ IsRecord items rs := by
    rw [mapM_eq_ok]
    simp only [record_eq_ok]
  rw [records, Parts, Value.member?_table]
  rcases Value.lookup "records" entries with _ | v
  · simp
  · simp [recordList_eq_ok, hitems]

theorem opaquePointer_eq_ok {p : OpaquePointer} :
    opaquePointer entries = .ok p ↔ IsOpaquePointer (.table entries) p := by
  unfold opaquePointer
  simp only [bind_eq_ok, text_eq_ok, location_eq_ok, type_eq_ok, pure_eq_ok, Except.ok.injEq]
  constructor
  · rintro ⟨name, hname, l, hl, t, ht, rfl⟩
    exact ⟨hname, hl, ht⟩
  · rintro ⟨hname, hl, ht⟩
    exact ⟨_, hname, _, hl, _, ht, rfl⟩

theorem opaqueType_eq_ok {t : OpaqueType} :
    opaqueType entries = .ok t ↔ IsOpaqueType (.table entries) t := by
  unfold opaqueType
  simp only [bind_eq_ok, text_eq_ok, location_eq_ok, pure_eq_ok, Except.ok.injEq]
  constructor
  · rintro ⟨name, hname, l, hl, rfl⟩
    exact ⟨hname, hl⟩
  · rintro ⟨hname, hl⟩
    exact ⟨_, hname, _, hl, rfl⟩

theorem typedef_eq_ok {a : Alias} : typedef entries = .ok a ↔ IsAlias (.table entries) a := by
  unfold typedef
  simp only [bind_eq_ok, text_eq_ok, location_eq_ok, type_eq_ok, pure_eq_ok, Except.ok.injEq]
  constructor
  · rintro ⟨name, hname, l, hl, t, ht, rfl⟩
    exact ⟨hname, hl, ht⟩
  · rintro ⟨hname, hl, ht⟩
    exact ⟨_, hname, _, hl, _, ht, rfl⟩

theorem enumMember_eq_ok {m : EnumMember} :
    enumMember entries = .ok m ↔ IsEnumMember (.table entries) m := by
  unfold enumMember
  simp only [bind_eq_ok, text_eq_ok, location_eq_ok, number_eq_ok, pure_eq_ok, Except.ok.injEq]
  constructor
  · rintro ⟨name, hname, l, hl, n, hn, rfl⟩
    exact ⟨hname, hl, hn⟩
  · rintro ⟨hname, hl, hn⟩
    exact ⟨_, hname, _, hl, _, hn, rfl⟩

theorem enumeration_eq_ok {e : Enumeration} :
    enumeration entries = .ok e ↔ IsEnumeration (.table entries) e := by
  have hmembers {ms : List EnumMember} : each enumMember entries "values" = .ok ms
      ↔ Parts IsEnumMember "values" (.table entries) ms :=
    each_eq_ok (fun _ _ => enumMember_eq_ok) fun _ _ hm => Value.exists_table_of_member? hm.name
  unfold enumeration
  simp only [bind_eq_ok, text_eq_ok, location_eq_ok, type_eq_ok, hmembers, pure_eq_ok,
    Except.ok.injEq]
  constructor
  · rintro ⟨name, hname, l, hl, t, ht, ms, hms, rfl⟩
    exact ⟨hname, hl, ht, hms⟩
  · rintro ⟨hname, hl, ht, hms⟩
    exact ⟨_, hname, _, hl, _, ht, _, hms, rfl⟩

/-- A header is read exactly where the document describes it. -/
theorem header_eq_ok {h : Header} : header entries = .ok h ↔ IsHeader (.table entries) h := by
  have hlist {α : Type} {R : Value → α → Prop} {read : Entries → Except Gap α} {name : α → String}
      (hread : ∀ inner x, read inner = .ok x ↔ R (.table inner) x)
      (hname : ∀ v x, R v x → v.member? "name" = some (.text (name x))) (key : String)
      (xs : List α) : each read entries key = .ok xs ↔ Parts R key (.table entries) xs :=
    each_eq_ok hread fun v x hx => Value.exists_table_of_member? (hname v x hx)
  unfold header
  simp only [bind_eq_ok, records_eq_ok, pure_eq_ok, Except.ok.injEq,
    hlist (fun _ _ => function_eq_ok) fun _ _ hf => hf.name,
    hlist (fun _ _ => functionPointer_eq_ok) fun _ _ hf => hf.name,
    hlist (fun _ _ => opaquePointer_eq_ok) fun _ _ hp => hp.name,
    hlist (fun _ _ => opaqueType_eq_ok) fun _ _ ht => ht.name,
    hlist (fun _ _ => typedef_eq_ok) fun _ _ ha => ha.name,
    hlist (fun _ _ => enumeration_eq_ok) fun _ _ he => he.name]
  constructor
  · rintro ⟨fs, hfs, ps, hps, rs, hrs, os, hos, ts, hts, as, has, es, hes, rfl⟩
    exact ⟨hfs, hps, hrs, hos, hts, has, hes⟩
  · rintro ⟨hfs, hps, hrs, hos, hts, has, hes⟩
    exact ⟨_, hfs, _, hps, _, hrs, _, hos, _, hts, _, has, _, hes, rfl⟩

end Readers

end Interop.Decl.Document
