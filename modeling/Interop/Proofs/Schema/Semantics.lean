import Interop.Proofs.Schema.Fits
import Interop.Proofs.Value.Parts

/-!
# What the schema document says

The schema document is itself a value, and JSON Schema (draft 2020-12) says which values it accepts:
every keyword of a schema asks something of the value by itself, and says nothing of a value of
another kind.  `Accepts` is this reading, for the keywords that the document uses.  It goes by the
text of the document alone and knows no shapes.

Main statement: the document accepts exactly the values in which nothing breaks the shape
(`accepts_document_iff`).
-/

set_option autoImplicit false

namespace Interop.Schema

open Value (Entries)

/-! ## References -/

/-- The value at a path of keys. -/
def at? : List String → Value → Option Value
  | [], v => some v
  | key :: keys, .table entries => (Value.lookup key entries).bind (at? keys)
  | _, _ => none

/-- What a reference such as `#/a/b` points to in the document that it stands in. -/
def resolve? (root : Value) (reference : String) : Option Value :=
  match (Text.splitOn '/' reference.toList).map String.ofList with
  | "#" :: keys => at? keys root
  | _ => none

/-! ## Keywords -/

/-- The names of the types that a value has.  A double without a fraction is an integer, too; dates
and times do not occur in JSON. -/
def typesOf : Value → List String
  | .table _ => ["object"]
  | .list _ => ["array"]
  | .text _ => ["string"]
  | .bool _ => ["boolean"]
  | .null => ["null"]
  | .number n => if n.isWhole then ["integer", "number"] else ["number"]
  | .stamp _ => []

/-- The names that the argument of `type` lists; a single name stands for itself. -/
def typeNames : Value → List Value
  | .list names => names
  | name => [name]

/-- The value satisfies every keyword of the schema. -/
inductive Accepts (root : Value) : Value → Value → Prop
  | mk {schema : Entries} {v : Value}
      (type : ∀ t, Value.lookup "type" schema = some t →
        ∃ name ∈ typesOf v, .text name ∈ typeNames t)
      (enum : ∀ words, Value.lookup "enum" schema = some (.list words) → v ∈ words)
      (minimum : ∀ bound n, Value.lookup "minimum" schema = some (.number bound) →
        v = .number n → n.less bound = false)
      (minLength : ∀ (bound : Nat) s, Value.lookup "minLength" schema = some (.int bound) →
        v = .text s → bound ≤ s.length)
      (required : ∀ names entries, Value.lookup "required" schema = some (.list names) →
        v = .table entries → ∀ name, .text name ∈ names →
          ∃ w, Value.lookup name entries = some w)
      (properties : ∀ members entries, Value.lookup "properties" schema = some (.table members) →
        v = .table entries → ∀ name member w, Value.lookup name members = some member →
          Value.lookup name entries = some w → Accepts root member w)
      (additional : ∀ entries, Value.lookup "additionalProperties" schema = some (.bool false) →
        v = .table entries → ∀ e ∈ entries, ∃ members member,
          Value.lookup "properties" schema = some (.table members)
            ∧ Value.lookup e.1 members = some member)
      (items : ∀ item ws, Value.lookup "items" schema = some item → v = .list ws →
        ∀ w ∈ ws, Accepts root item w)
      (resolves : ∀ r, Value.lookup "$ref" schema = some (.text r) →
        ∃ target, resolve? root r = some target)
      (reference : ∀ r target, Value.lookup "$ref" schema = some (.text r) →
        resolve? root r = some target → Accepts root target v) :
      Accepts root (.table schema) v

section Keywords

variable {root v : Value} {schema : Entries}

/-- What is accepted is of a type that is asked for. -/
theorem Accepts.type (h : Accepts root (.table schema) v) {t : Value}
    (ht : Value.lookup "type" schema = some t) : ∃ name ∈ typesOf v, .text name ∈ typeNames t := by
  cases h with
  | mk htype => exact htype t ht

/-- The keywords that look into a value or at another schema. -/
def inward : List String := ["required", "properties", "additionalProperties", "items", "$ref"]

/-- A schema without such keywords looks at the value as it is. -/
theorem accepts_scalar (hnone : ∀ k ∈ inward, Value.lookup k schema = none) :
    Accepts root (.table schema) v ↔
      (∀ t, Value.lookup "type" schema = some t → ∃ name ∈ typesOf v, .text name ∈ typeNames t)
      ∧ (∀ words, Value.lookup "enum" schema = some (.list words) → v ∈ words)
      ∧ (∀ bound n, Value.lookup "minimum" schema = some (.number bound) →
          v = .number n → n.less bound = false)
      ∧ ∀ (bound : Nat) s, Value.lookup "minLength" schema = some (.int bound) →
          v = .text s → bound ≤ s.length := by
  have h₁ := hnone "required" (by decide)
  have h₂ := hnone "properties" (by decide)
  have h₃ := hnone "additionalProperties" (by decide)
  have h₄ := hnone "items" (by decide)
  have h₅ := hnone "$ref" (by decide)
  constructor
  · rintro ⟨htype, henum, hminimum, hlength, -⟩
    exact ⟨htype, henum, hminimum, hlength⟩
  · rintro ⟨htype, henum, hminimum, hlength⟩
    refine ⟨htype, henum, hminimum, hlength, ?_, ?_, ?_, ?_, ?_, ?_⟩ <;> simp [h₁, h₂, h₃, h₄, h₅]

/-- A reference accepts what its target accepts. -/
theorem accepts_reference {r : String} {target : Value} (hr : resolve? root r = some target) :
    Accepts root (.table [("$ref", .text r)]) v ↔ Accepts root target v := by
  constructor
  · rintro ⟨_, _, _, _, _, _, _, _, _, hreference⟩
    exact hreference r target rfl hr
  · intro h
    constructor
    case resolves =>
      intro r' hr'
      obtain rfl : r = r' := by simpa [Value.lookup] using hr'
      exact ⟨target, hr⟩
    case reference =>
      intro r' target' hr' htarget
      obtain rfl : r = r' := by simpa [Value.lookup] using hr'
      obtain rfl := Option.some.inj (hr.symm.trans htarget)
      exact h
    all_goals simp [Value.lookup]

end Keywords

/-! ## Single values -/

section Scalars

variable {root v : Value}

theorem accepts_text : Accepts root (Rule.text).schema v ↔ Fits .text v := by
  rw [fits_text, Rule.schema, accepts_scalar (by decide)]
  cases v with
  | number n => cases h : n.isWhole <;> simp [Value.lookup, typeNames, typesOf, h]
  | _ => simp [Value.lookup, typeNames, typesOf]

theorem accepts_filledText : Accepts root (Rule.filledText).schema v ↔ Fits .filledText v := by
  rw [fits_filledText, Rule.schema, accepts_scalar (by decide)]
  cases v with
  | number n => cases h : n.isWhole <;> simp [Value.lookup, typeNames, typesOf, h]
  | text s =>
    have hlength : (∀ bound : Nat, 1 = (bound : Int) → bound ≤ s.length) ↔ ¬ s = "" := by
      rw [← String.length_eq_zero_iff]
      constructor
      · intro h hzero
        have hone := h 1 rfl
        omega
      · intro h bound hbound
        omega
    simpa [Value.lookup, typeNames, typesOf, Value.int] using hlength
  | _ => simp [Value.lookup, typeNames, typesOf]

theorem accepts_integer : Accepts root (Rule.integer).schema v ↔ Fits .integer v := by
  rw [fits_integer, Rule.schema, accepts_scalar (by decide)]
  cases v with
  | number n => cases h : n.isWhole <;> simp [Value.lookup, typeNames, typesOf, h]
  | _ => simp [Value.lookup, typeNames, typesOf]

theorem accepts_natural : Accepts root (Rule.natural).schema v ↔ Fits .natural v := by
  rw [fits_natural, Rule.schema, accepts_scalar (by decide)]
  cases v with
  | number n => cases h : n.isWhole <;> simp [Value.lookup, typeNames, typesOf, h, Value.int]; rfl
  | _ => simp [Value.lookup, typeNames, typesOf]

theorem accepts_naturalOrNull :
    Accepts root (Rule.naturalOrNull).schema v ↔ Fits .naturalOrNull v := by
  rw [fits_naturalOrNull, Rule.schema, accepts_scalar (by decide)]
  cases v with
  | number n => cases h : n.isWhole <;> simp [Value.lookup, typeNames, typesOf, h, Value.int]; rfl
  | _ => simp [Value.lookup, typeNames, typesOf]

theorem accepts_flag : Accepts root (Rule.flag).schema v ↔ Fits .flag v := by
  rw [fits_flag, Rule.schema, accepts_scalar (by decide)]
  cases v with
  | number n => cases h : n.isWhole <;> simp [Value.lookup, typeNames, typesOf, h]
  | _ => simp [Value.lookup, typeNames, typesOf]

theorem accepts_oneOf (words : List String) :
    Accepts root (Rule.oneOf words).schema v ↔ Fits (.oneOf words) v := by
  rw [fits_oneOf, Rule.schema, accepts_scalar (by simp [inward, Value.lookup])]
  have hmem : v ∈ words.map Value.text ↔ ∃ s, v = .text s ∧ s ∈ words := by
    rw [List.mem_map]
    exact ⟨fun ⟨s, hs, hv⟩ => ⟨s, hv.symm, hs⟩, fun ⟨s, hv, hs⟩ => ⟨s, hs, hv.symm⟩⟩
  rw [← hmem]
  simp [Value.lookup]

end Scalars

/-! ## Objects and arrays -/

/-- The rule asks for no whole document. -/
def Rule.Inner : Rule → Prop
  | .object shape | .array shape => shape ≠ .document
  | _ => True

instance (rule : Rule) : Decidable rule.Inner := by
  unfold Rule.Inner
  split <;> infer_instance

/-- No object has a whole document in it. -/
theorem members_inner (shape : Shape) : ∀ m ∈ shape.members, m.rule.Inner := by
  cases shape <;> decide

/-- The references of the document point to the keywords of the shapes. -/
theorem resolve?_shape {shape : Shape} (h : shape ≠ .document) :
    resolve? document ("#/$defs/" ++ shape.name) = some (.table shape.keywords) := by
  cases shape
  case document => exact absurd rfl h
  all_goals rfl

/-- The schemas of the members of an object, by their keys. -/
def memberSchemas (shape : Shape) : Entries := shape.members.map fun m => (m.key, m.rule.schema)

theorem members_nodup (shape : Shape) : (shape.members.map (·.key)).Nodup := by
  cases shape <;> decide

theorem lookup_memberSchemas {shape : Shape} {m : Member} (hm : m ∈ shape.members) :
    Value.lookup m.key (memberSchemas shape) = some m.rule.schema := by
  have hnodup := members_nodup shape
  unfold memberSchemas
  generalize shape.members = ms at hm hnodup
  induction ms with
  | nil => cases hm
  | cons m' ms ih =>
    obtain ⟨hnotMem, hrest⟩ := List.nodup_cons.mp hnodup
    rw [List.map_cons, Value.lookup]
    rcases List.mem_cons.mp hm with rfl | hm
    · exact if_pos rfl
    · have hne : m'.key ≠ m.key := by
        intro he
        exact hnotMem (List.mem_map.mpr ⟨m, hm, he.symm⟩)
      rw [if_neg hne]
      exact ih hm hrest

theorem exists_member_of_lookup {shape : Shape} {key : String} {member : Value}
    (h : Value.lookup key (memberSchemas shape) = some member) :
    ∃ m ∈ shape.members, m.key = key ∧ m.rule.schema = member := by
  unfold memberSchemas at h
  generalize shape.members = ms at h ⊢
  induction ms with
  | nil => cases h
  | cons m ms ih =>
    rw [List.map_cons, Value.lookup] at h
    split at h
    · rename_i hkey
      exact ⟨m, List.mem_cons_self, hkey, Option.some.inj h⟩
    · obtain ⟨m', hm', hkey⟩ := ih h
      exact ⟨m', List.mem_cons_of_mem _ hm', hkey⟩

/-- The keys of the members that an object has to have. -/
def neededKeys (shape : Shape) : List Value :=
  (shape.members.filter (·.required)).map fun m => Value.text m.key

theorem text_mem_neededKeys {shape : Shape} {key : String} :
    .text key ∈ neededKeys shape ↔ ∃ m ∈ shape.members, m.required = true ∧ m.key = key := by
  simp [neededKeys, and_assoc]

/-- The keywords of an object, as they are looked up. -/
structure Described (shape : Shape) (schema : Entries) : Prop where
  type : Value.lookup "type" schema = some (.text "object")
  additional : Value.lookup "additionalProperties" schema = some (.bool false)
  properties : Value.lookup "properties" schema = some (.table (memberSchemas shape))
  required : (Value.lookup "required" schema).getD (.list []) = .list (neededKeys shape)
  others : ∀ k ∈ ["enum", "minimum", "minLength", "items", "$ref"], Value.lookup k schema = none

theorem described_keywords (shape : Shape) : Described shape shape.keywords := by
  have hkeywords : shape.keywords =
      ("type", .text "object") :: ("additionalProperties", .bool false)
        :: ((if (neededKeys shape).isEmpty then [] else [("required", .list (neededKeys shape))])
          ++ [("properties", .table (memberSchemas shape))]) := rfl
  rw [hkeywords]
  have habsent (k : String) (hk : k ∈ ["enum", "minimum", "minLength", "items", "$ref"]) :
      "type" ≠ k ∧ "additionalProperties" ≠ k ∧ "required" ≠ k ∧ "properties" ≠ k := by
    revert k
    decide
  constructor
  case others =>
    intro k hk
    obtain ⟨htype, hadditional, hrequired, hproperties⟩ := habsent k hk
    split <;> simp [Value.lookup, htype, hadditional, hrequired, hproperties]
  all_goals
    generalize neededKeys shape = needed
    generalize memberSchemas shape = properties
    cases needed <;> rfl

/-- A key that is needed is listed, so the list is there. -/
theorem Described.lookup_required {shape : Shape} {schema : Entries} (h : Described shape schema)
    {key : Value} (hkey : key ∈ neededKeys shape) :
    Value.lookup "required" schema = some (.list (neededKeys shape)) := by
  have hgetD := h.required
  cases hlookup : Value.lookup "required" schema with
  | none =>
    rw [hlookup] at hgetD
    obtain hnil : [] = neededKeys shape := by simpa using hgetD
    rw [← hnil] at hkey
    cases hkey
  | some names =>
    rw [hlookup] at hgetD
    exact congrArg some hgetD

theorem exists_entries_of_typesOf {v : Value} (h : "object" ∈ typesOf v) :
    ∃ entries, v = .table entries := by
  cases v with
  | number n => cases hn : n.isWhole <;> simp [typesOf, hn] at h
  | table entries => exact ⟨entries, rfl⟩
  | _ => simp [typesOf] at h

theorem exists_items_of_typesOf {v : Value} (h : "array" ∈ typesOf v) : ∃ items, v = .list items := by
  cases v with
  | number n => cases hn : n.isWhole <;> simp [typesOf, hn] at h
  | list items => exact ⟨items, rfl⟩
  | _ => simp [typesOf] at h

/-- What a schema says of the members of an object, it says of an object that it accepts. -/
theorem Described.shaped {root : Value} {shape : Shape} {schema entries : Entries}
    (hschema : Described shape schema)
    (ih : ∀ m ∈ shape.members, ∀ w, Value.lookup m.key entries = some w →
      Accepts root m.rule.schema w → Fits m.rule w)
    (h : Accepts root (.table schema) (.table entries)) : Shaped shape entries := by
  obtain ⟨-, -, -, -, hrequired, hproperties, hadditional, -⟩ := h
  constructor
  case known =>
    intro e he
    obtain ⟨members, member, hmembers, hmember⟩ := hadditional entries hschema.additional rfl e he
    rw [hschema.properties] at hmembers
    cases hmembers
    obtain ⟨m, hm, hkey, -⟩ := exists_member_of_lookup hmember
    exact ⟨m, hm, hkey⟩
  case complete =>
    intro m hm hneeded
    have hkey : .text m.key ∈ neededKeys shape := text_mem_neededKeys.mpr ⟨m, hm, hneeded, rfl⟩
    exact hrequired _ entries (hschema.lookup_required hkey) rfl _ hkey
  case fits =>
    intro m hm w hw
    exact ih m hm w hw
      (hproperties _ entries hschema.properties rfl _ _ w (lookup_memberSchemas hm) hw)

/-- A schema that describes a shape accepts what is shaped: its other keywords say nothing. -/
theorem Described.accepts {root : Value} {shape : Shape} {schema entries : Entries}
    (hschema : Described shape schema)
    (ih : ∀ m ∈ shape.members, ∀ w, Value.lookup m.key entries = some w →
      Fits m.rule w → Accepts root m.rule.schema w)
    (h : Shaped shape entries) : Accepts root (.table schema) (.table entries) := by
  constructor
  case type =>
    intro t ht
    obtain rfl := Option.some.inj (hschema.type.symm.trans ht)
    exact ⟨"object", by simp [typesOf], by simp [typeNames]⟩
  case required =>
    intro names entries' hnames hentries name hname
    cases hentries
    have hgetD := hschema.required
    rw [hnames] at hgetD
    obtain rfl : names = neededKeys shape := by simpa using hgetD
    obtain ⟨m, hm, hneeded, rfl⟩ := text_mem_neededKeys.mp hname
    exact h.complete m hm hneeded
  case properties =>
    intro members entries' hmembers hentries name member w hmember hw
    cases hentries
    rw [hschema.properties] at hmembers
    cases hmembers
    obtain ⟨m, hm, rfl, rfl⟩ := exists_member_of_lookup hmember
    exact ih m hm w hw (h.fits m hm w hw)
  case additional =>
    intro entries' _ hentries e he
    cases hentries
    obtain ⟨m, hm, hkey⟩ := h.known e he
    exact ⟨_, _, hschema.properties, hkey ▸ lookup_memberSchemas hm⟩
  case enum => simp [hschema.others "enum" (by decide)]
  case minimum => simp [hschema.others "minimum" (by decide)]
  case minLength => simp [hschema.others "minLength" (by decide)]
  case items => simp [hschema.others "items" (by decide)]
  case resolves => simp [hschema.others "$ref" (by decide)]
  case reference => simp [hschema.others "$ref" (by decide)]

/-- An object is accepted when it is shaped and so is whatever is in it. -/
theorem accepts_object {root v : Value} {shape : Shape} {schema : Entries}
    (hschema : Described shape schema)
    (ih : ∀ m ∈ shape.members, ∀ entries w, v = .table entries →
      Value.lookup m.key entries = some w → (Accepts root m.rule.schema w ↔ Fits m.rule w)) :
    Accepts root (.table schema) v ↔ Fits (.object shape) v := by
  rw [fits_object]
  constructor
  · intro h
    obtain ⟨name, hname, hobject⟩ := h.type hschema.type
    obtain rfl : name = "object" := by simpa [typeNames] using hobject
    obtain ⟨entries, rfl⟩ := exists_entries_of_typesOf hname
    exact ⟨entries, rfl, hschema.shaped (fun m hm w hw => (ih m hm entries w rfl hw).mp) h⟩
  · rintro ⟨entries, rfl, hshaped⟩
    exact hschema.accepts (fun m hm w hw => (ih m hm entries w rfl hw).mpr) hshaped

/-- An array is accepted when all its items are. -/
theorem accepts_array {root v : Value} {shape : Shape}
    (ih : ∀ items w, v = .list items → w ∈ items →
      (Accepts root shape.reference w ↔ Fits (.object shape) w)) :
    Accepts root (Rule.array shape).schema v ↔ Fits (.array shape) v := by
  rw [fits_array, Rule.schema]
  constructor
  · rintro ⟨htype, -, -, -, -, -, -, hitems, -⟩
    obtain ⟨name, hname, harray⟩ := htype _ rfl
    obtain rfl : name = "array" := by simpa [typeNames] using harray
    obtain ⟨items, rfl⟩ := exists_items_of_typesOf hname
    exact ⟨items, rfl, fun w hw => (ih items w rfl hw).mp (hitems _ items rfl rfl w hw)⟩
  · rintro ⟨items, rfl, hfits⟩
    constructor
    case type =>
      intro t ht
      obtain rfl := Option.some.inj ht
      exact ⟨"array", by simp [typesOf], by simp [typeNames]⟩
    case items =>
      intro item ws hitem hws w hw
      cases hws
      obtain rfl := Option.some.inj hitem
      exact (ih items w rfl hw).mpr (hfits w hw)
    all_goals simp [Value.lookup]

/-! ## The whole document -/

/-- The schema of a rule accepts exactly what fits the rule.  The induction is on the size of the
value: a reference leads to another schema for the same value, and only from there into it. -/
theorem accepts_iff_fits {rule : Rule} (hrule : rule.Inner) (v : Value) :
    Accepts document rule.schema v ↔ Fits rule v := by
  induction hsize : sizeOf v using Nat.strongRecOn generalizing rule v with
  | _ size ih =>
    have hobject (shape : Shape) (hshape : shape ≠ .document) (w : Value) (hw : sizeOf w ≤ size) :
        Accepts document shape.reference w ↔ Fits (.object shape) w := by
      rw [Shape.reference, accepts_reference (resolve?_shape hshape)]
      refine accepts_object (described_keywords shape) ?_
      intro m hm entries part hentries hpart
      subst hentries
      have hlt := Value.sizeOf_lookup_lt hpart
      exact ih _ (Nat.lt_of_lt_of_le hlt hw) (members_inner shape m hm) part rfl
    cases rule with
    | text => exact accepts_text
    | filledText => exact accepts_filledText
    | integer => exact accepts_integer
    | natural => exact accepts_natural
    | naturalOrNull => exact accepts_naturalOrNull
    | flag => exact accepts_flag
    | oneOf words => exact accepts_oneOf words
    | object shape => exact hobject shape hrule v (Nat.le_of_eq hsize)
    | array shape =>
      refine accepts_array ?_
      intro items w hitems hw
      subst hitems
      have hlt := Value.sizeOf_item_lt hw
      exact hobject shape hrule w (by omega)

/-- **The document accepts exactly the values in which nothing breaks the shape.** -/
theorem accepts_document_iff {v : Value} : Accepts document document v ↔ check v = none := by
  have hschema : Described .document
      ([("$schema", .text "https://json-schema.org/draft/2020-12/schema"),
        ("$id", .text "c2cs://c-model.schema.json"), ("title", .text "C declaration model")]
      ++ Shape.document.keywords
      ++ [("$defs", .table (definitions.map fun s => (s.name, .table s.keywords)))]) := by
    constructor
    case others =>
      intro k hk
      revert k
      simp only [List.forall_mem_cons]
      exact ⟨rfl, rfl, rfl, rfl, rfl, by simp⟩
    all_goals rfl
  rw [check_eq_none]
  refine accepts_object hschema ?_
  intro m hm entries w _ _
  exact accepts_iff_fits (members_inner .document m hm) w

end Interop.Schema
