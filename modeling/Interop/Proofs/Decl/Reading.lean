import Interop.Decl.Document
import Interop.Proofs.Failing
import Interop.Proofs.Schema.Fits

/-!
# Reading what fits

The shapes of a document and the readers of its declarations go by the same keys.  A reader finds
every member that it asks for in an object of its shape, so the document of a model that has passed
the check always describes a header (`exists_ofValue`).
-/

set_option autoImplicit false

namespace Interop.Decl.Document

open Schema (Shape Shaped Rule Fits)
open Value (Entries)

/-- There is no gap. -/
abbrev Reads {α : Type} (x : Except Gap α) : Prop := Ends x (fun _ => True) fun _ => False

variable {shape : Shape} {entries : Entries} {key : String} {rule : Rule}

/-! ## Members -/

/-- Something that fits the rule is under the key. -/
abbrev Holds (entries : Entries) (key : String) (rule : Rule) : Prop :=
  ∃ v, Value.lookup key entries = some v ∧ Fits rule v

theorem holds_of_required (h : Shaped shape entries)
    (hm : Schema.required key rule ∈ shape.members) : Holds entries key rule := by
  obtain ⟨v, hv⟩ := h.complete _ hm rfl
  exact ⟨v, hv, h.fits _ hm v hv⟩

theorem holds_of_optional (h : Shaped shape entries)
    (hm : Schema.optional key rule ∈ shape.members) :
    Value.lookup key entries = none ∨ Holds entries key rule := by
  cases hv : Value.lookup key entries with
  | none => exact .inl rfl
  | some v => exact .inr ⟨v, hv, h.fits _ hm v hv⟩

theorem text_reads (h : Holds entries key .text) : Reads (text entries key) := by
  obtain ⟨v, hv, hfits⟩ := h
  obtain ⟨s, rfl⟩ := Schema.fits_text.mp hfits
  unfold text
  rw [hv]
  exact Ends.ok trivial

theorem filledText_reads (h : Holds entries key .filledText) : Reads (text entries key) := by
  obtain ⟨v, hv, hfits⟩ := h
  obtain ⟨s, rfl, -⟩ := Schema.fits_filledText.mp hfits
  exact text_reads ⟨_, hv, Schema.fits_text.mpr ⟨s, rfl⟩⟩

theorem textOr_reads (default : String)
    (h : Value.lookup key entries = none ∨ Holds entries key .text) :
    Reads (textOr default entries key) := by
  unfold textOr
  rcases h with hnone | ⟨v, hv, hfits⟩
  · rw [hnone]
    exact Ends.ok trivial
  · obtain ⟨s, rfl⟩ := Schema.fits_text.mp hfits
    rw [hv]
    exact Ends.ok trivial

theorem integer_reads (h : Holds entries key .integer) : Reads (number entries key) := by
  obtain ⟨v, hv, hfits⟩ := h
  obtain ⟨n, rfl, -⟩ := Schema.fits_integer.mp hfits
  unfold number
  rw [hv]
  exact Ends.ok trivial

theorem natural_reads (h : Holds entries key .natural) : Reads (number entries key) := by
  obtain ⟨v, hv, hfits⟩ := h
  obtain ⟨n, rfl, hwhole, -⟩ := Schema.fits_natural.mp hfits
  exact integer_reads ⟨_, hv, Schema.fits_integer.mpr ⟨n, rfl, hwhole⟩⟩

theorem numberOrNull_reads
    (h : Value.lookup key entries = none ∨ Holds entries key .naturalOrNull) :
    Reads (numberOrNull entries key) := by
  unfold numberOrNull
  rcases h with hnone | ⟨v, hv, hfits⟩
  · rw [hnone]
    exact Ends.ok trivial
  · rw [hv]
    rcases Schema.fits_naturalOrNull.mp hfits with rfl | ⟨n, rfl, -⟩
    · exact Ends.ok trivial
    · exact Ends.ok trivial

theorem flag_reads (h : Value.lookup key entries = none ∨ Holds entries key .flag) :
    Reads (flag entries key) := by
  unfold flag
  rcases h with hnone | ⟨v, hv, hfits⟩
  · rw [hnone]
    exact Ends.ok trivial
  · obtain ⟨b, rfl⟩ := Schema.fits_flag.mp hfits
    rw [hv]
    exact Ends.ok trivial

theorem object_reads {inner : Shape} (h : Holds entries key (.object inner)) :
    Ends (object entries key) (Shaped inner) fun _ => False := by
  obtain ⟨v, hv, hfits⟩ := h
  obtain ⟨members, rfl, hshaped⟩ := Schema.fits_object.mp hfits
  unfold object
  rw [hv]
  exact Ends.ok hshaped

/-- A list of objects is read where each of them is. -/
theorem each_reads {α : Type} {inner : Shape} {read : Entries → Except Gap α}
    (hread : ∀ members, Shaped inner members → Reads (read members))
    (h : Value.lookup key entries = none ∨ Holds entries key (.array inner)) :
    Reads (each read entries key) := by
  unfold each
  rcases h with hnone | ⟨v, hv, hfits⟩
  · rw [hnone]
    exact Ends.ok trivial
  · obtain ⟨items, rfl, hitems⟩ := Schema.fits_array.mp hfits
    have hitem (item : Value) (hmem : item ∈ items) : Reads (itemEntries key item >>= read) := by
      obtain ⟨members, rfl, hshaped⟩ := Schema.fits_object.mp (hitems item hmem)
      exact hread members hshaped
    rw [hv]
    exact (Ends.mapM hitem).giving fun _ _ => trivial

/-! ## Declarations -/

theorem location_reads (h : Holds entries "location" (.object .location)) :
    Reads (location entries) := by
  refine (object_reads h).bind fun l hl => ?_
  refine (text_reads (holds_of_required hl (by decide))).bind fun _ _ => ?_
  refine (text_reads (holds_of_required hl (by decide))).bind fun _ _ => ?_
  refine (natural_reads (holds_of_required hl (by decide))).bind fun _ _ => ?_
  exact (textOr_reads "" (holds_of_optional hl (by decide))).bind fun _ _ => Ends.ok trivial

theorem type_reads (h : Holds entries key (.object .type)) : Reads (type entries key) := by
  refine (object_reads h).bind fun t ht => ?_
  refine (filledText_reads (holds_of_required ht (by decide))).bind fun name _ => ?_
  refine (textOr_reads name (holds_of_optional ht (by decide))).bind fun _ _ => ?_
  refine (natural_reads (holds_of_required ht (by decide))).bind fun _ _ => ?_
  refine (natural_reads (holds_of_required ht (by decide))).bind fun _ _ => ?_
  refine (numberOrNull_reads (holds_of_optional ht (by decide))).bind fun _ _ => ?_
  exact (flag_reads (holds_of_optional ht (by decide))).bind fun _ _ => Ends.ok trivial

theorem convention_reads {words : List String}
    (h : Holds entries "calling_convention" (.oneOf words)) : Reads (convention entries) := by
  obtain ⟨v, hv, hfits⟩ := h
  obtain ⟨s, rfl, -⟩ := Schema.fits_oneOf.mp hfits
  refine (text_reads ⟨_, hv, Schema.fits_text.mpr ⟨s, rfl⟩⟩).bind fun word _ => ?_
  split
  · exact Ends.ok trivial
  · exact Ends.ok trivial
  · exact Ends.ok trivial

theorem parameter_reads (h : Shaped .parameter entries) : Reads (parameter entries) := by
  refine (text_reads (holds_of_required h (by decide))).bind fun _ _ => ?_
  refine (location_reads (holds_of_required h (by decide))).bind fun _ _ => ?_
  refine (type_reads (holds_of_required h (by decide))).bind fun _ _ => ?_
  exact (flag_reads (holds_of_optional h (by decide))).bind fun _ _ => Ends.ok trivial

theorem function_reads (h : Shaped .function entries) : Reads (function entries) := by
  refine (filledText_reads (holds_of_required h (by decide))).bind fun _ _ => ?_
  refine (location_reads (holds_of_required h (by decide))).bind fun _ _ => ?_
  have hconvention : Holds entries "calling_convention" (.oneOf ["C", "Unknown"]) :=
    holds_of_required h (by decide)
  refine (convention_reads hconvention).bind fun _ _ => ?_
  refine (type_reads (holds_of_required h (by decide))).bind fun _ _ => ?_
  exact (each_reads (fun _ => parameter_reads) (holds_of_optional h (by decide))).bind
    fun _ _ => Ends.ok trivial

theorem functionPointer_reads (h : Shaped .functionPointer entries) :
    Reads (functionPointer entries) := by
  refine (filledText_reads (holds_of_required h (by decide))).bind fun _ _ => ?_
  refine (location_reads (holds_of_required h (by decide))).bind fun _ _ => ?_
  exact (type_reads (holds_of_required h (by decide))).bind fun _ _ => Ends.ok trivial

theorem field_reads (h : Shaped .field entries) : Reads (field entries) := by
  refine (filledText_reads (holds_of_required h (by decide))).bind fun _ _ => ?_
  refine (location_reads (holds_of_required h (by decide))).bind fun _ _ => ?_
  refine (type_reads (holds_of_required h (by decide))).bind fun _ _ => ?_
  refine (natural_reads (holds_of_required h (by decide))).bind fun _ _ => ?_
  exact (natural_reads (holds_of_required h (by decide))).bind fun _ _ => Ends.ok trivial

-- Records are read by going through the entries until the nested records turn up, so the induction
-- is on the value, and what is known of the member is known of whatever entries are left.
mutual

theorem record_reads : ∀ v : Value, Fits (.object .record) v → Reads (record v)
  | .table entries, hfits => by
    obtain ⟨members, hentries, h⟩ := Schema.fits_object.mp hfits
    cases hentries
    unfold record
    refine (filledText_reads (holds_of_required h (by decide))).bind fun _ _ => ?_
    refine (location_reads (holds_of_required h (by decide))).bind fun _ _ => ?_
    refine (type_reads (holds_of_required h (by decide))).bind fun _ _ => ?_
    refine (each_reads (fun _ => field_reads) (holds_of_optional h (by decide))).bind fun _ _ => ?_
    refine (nestedRecords_reads entries fun v hv => ?_).bind fun _ _ => Ends.ok trivial
    exact h.fits (Schema.optional "nested_records" (.array .record)) (by decide) v hv
  | .null, hfits => by simp [Schema.fits_object] at hfits
  | .bool _, hfits => by simp [Schema.fits_object] at hfits
  | .number _, hfits => by simp [Schema.fits_object] at hfits
  | .text _, hfits => by simp [Schema.fits_object] at hfits
  | .stamp _, hfits => by simp [Schema.fits_object] at hfits
  | .list _, hfits => by simp [Schema.fits_object] at hfits

theorem nestedRecords_reads : ∀ entries : Entries,
    (∀ v, Value.lookup "nested_records" entries = some v → Fits (.array .record) v) →
      Reads (nestedRecords entries)
  | [], _ => Ends.ok trivial
  | (k, v) :: rest, h => by
    unfold nestedRecords
    split
    · rename_i hk
      exact recordList_reads v (h v (by rw [Value.lookup, if_pos hk]))
    · rename_i hk
      refine nestedRecords_reads rest fun v' hv' => h v' ?_
      rw [Value.lookup, if_neg hk]
      exact hv'

theorem recordList_reads : ∀ v : Value, Fits (.array .record) v → Reads (recordList v)
  | .list items, hfits => by
    obtain ⟨items', hitems, h⟩ := Schema.fits_array.mp hfits
    cases hitems
    exact recordItems_reads items h
  | .null, hfits => by simp [Schema.fits_array] at hfits
  | .bool _, hfits => by simp [Schema.fits_array] at hfits
  | .number _, hfits => by simp [Schema.fits_array] at hfits
  | .text _, hfits => by simp [Schema.fits_array] at hfits
  | .stamp _, hfits => by simp [Schema.fits_array] at hfits
  | .table _, hfits => by simp [Schema.fits_array] at hfits

theorem recordItems_reads : ∀ items : List Value, (∀ item ∈ items, Fits (.object .record) item) →
    Reads (recordItems items)
  | [], _ => Ends.ok trivial
  | item :: rest, h => by
    unfold recordItems
    refine (record_reads item (h item List.mem_cons_self)).bind fun _ _ => ?_
    refine (recordItems_reads rest fun item' hitem => h item' (List.mem_cons_of_mem _ hitem)).bind
      fun _ _ => Ends.ok trivial

end

theorem records_reads (h : Value.lookup "records" entries = none
    ∨ Holds entries "records" (.array .record)) : Reads (records entries) := by
  unfold records
  rcases h with hnone | ⟨v, hv, hfits⟩
  · rw [hnone]
    exact Ends.ok trivial
  · rw [hv]
    exact recordList_reads v hfits

theorem opaquePointer_reads (h : Shaped .opaquePointer entries) : Reads (opaquePointer entries) := by
  refine (filledText_reads (holds_of_required h (by decide))).bind fun _ _ => ?_
  refine (location_reads (holds_of_required h (by decide))).bind fun _ _ => ?_
  exact (type_reads (holds_of_required h (by decide))).bind fun _ _ => Ends.ok trivial

theorem opaqueType_reads (h : Shaped .opaqueType entries) : Reads (opaqueType entries) := by
  refine (filledText_reads (holds_of_required h (by decide))).bind fun _ _ => ?_
  exact (location_reads (holds_of_required h (by decide))).bind fun _ _ => Ends.ok trivial

theorem typedef_reads (h : Shaped .typedef entries) : Reads (typedef entries) := by
  refine (filledText_reads (holds_of_required h (by decide))).bind fun _ _ => ?_
  refine (location_reads (holds_of_required h (by decide))).bind fun _ _ => ?_
  exact (type_reads (holds_of_required h (by decide))).bind fun _ _ => Ends.ok trivial

theorem enumMember_reads (h : Shaped .enumMember entries) : Reads (enumMember entries) := by
  refine (filledText_reads (holds_of_required h (by decide))).bind fun _ _ => ?_
  refine (location_reads (holds_of_required h (by decide))).bind fun _ _ => ?_
  exact (integer_reads (holds_of_required h (by decide))).bind fun _ _ => Ends.ok trivial

theorem enumeration_reads (h : Shaped .enumeration entries) : Reads (enumeration entries) := by
  refine (filledText_reads (holds_of_required h (by decide))).bind fun _ _ => ?_
  refine (location_reads (holds_of_required h (by decide))).bind fun _ _ => ?_
  refine (type_reads (holds_of_required h (by decide))).bind fun _ _ => ?_
  exact (each_reads (fun _ => enumMember_reads) (holds_of_optional h (by decide))).bind
    fun _ _ => Ends.ok trivial

theorem header_reads (h : Shaped .document entries) : Reads (header entries) := by
  refine (each_reads (fun _ => function_reads) (holds_of_optional h (by decide))).bind
    fun _ _ => ?_
  refine (each_reads (fun _ => functionPointer_reads) (holds_of_optional h (by decide))).bind
    fun _ _ => ?_
  refine (records_reads (holds_of_optional h (by decide))).bind fun _ _ => ?_
  refine (each_reads (fun _ => opaquePointer_reads) (holds_of_optional h (by decide))).bind
    fun _ _ => ?_
  refine (each_reads (fun _ => opaqueType_reads) (holds_of_optional h (by decide))).bind
    fun _ _ => ?_
  refine (each_reads (fun _ => typedef_reads) (holds_of_optional h (by decide))).bind
    fun _ _ => ?_
  exact (each_reads (fun _ => enumeration_reads) (holds_of_optional h (by decide))).bind
    fun _ _ => Ends.ok trivial

end Interop.Decl.Document

namespace Interop.Decl

/-- What passes the check describes a header. -/
theorem exists_ofValue {v : Value} (h : Schema.check v = none) :
    ∃ header, Header.ofValue v = .ok header := by
  obtain ⟨entries, rfl, hshaped⟩ := Schema.fits_object.mp (Schema.check_eq_none.mp h)
  unfold Header.ofValue
  rw [h]
  dsimp only
  have hreads := Document.header_reads hshaped
  cases hheader : Document.header entries with
  | error gap => exact (hreads.failure hheader).elim
  | ok header =>
    have hitem : Document.itemEntries "" (.table entries) >>= Document.header = .ok header := hheader
    rw [hitem]
    exact ⟨header, rfl⟩

end Interop.Decl
