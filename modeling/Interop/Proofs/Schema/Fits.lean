import Interop.Schema.Violation

/-!
# Values that fit

A value fits a rule when nothing in it breaks the rule.  What this means for an object is said member
by member (`fits_object`), and for an array item by item (`fits_array`); so a value that fits can be
taken apart along its shape, and one with some items left out still fits.
-/

set_option autoImplicit false

namespace Interop.Schema

open Value (Entries)

/-- Nothing in the value breaks the rule. -/
def Fits (rule : Rule) (v : Value) : Prop := violations rule v = []

/-! ## The report -/

theorem worst_eq_none {vs : List Violation} : worst vs = none ↔ vs = [] := by
  cases vs with
  | nil => simp [worst]
  | cons v vs => simp [worst]

/-- There is nothing to report of a document exactly if it fits. -/
theorem check_eq_none {v : Value} : check v = none ↔ Fits (.object .document) v := worst_eq_none

/-! ## Arrays -/

theorem itemViolations_eq_nil {shape : Shape} {index : Nat} {items : List Value} :
    itemViolations shape index items = [] ↔ ∀ item ∈ items, Fits (.object shape) item := by
  induction items generalizing index with
  | nil => simp [itemViolations]
  | cons item items ih =>
    rw [itemViolations, List.append_eq_nil_iff, List.map_eq_nil_iff, ih, List.forall_mem_cons]
    rfl

theorem fits_array {shape : Shape} {v : Value} :
    Fits (.array shape) v ↔
      ∃ items, v = .list items ∧ ∀ item ∈ items, Fits (.object shape) item := by
  unfold Fits
  cases v with
  | list items =>
    rw [violations, itemViolations_eq_nil]
    constructor
    · exact fun h => ⟨items, rfl, h⟩
    · rintro ⟨items', hitems, h⟩
      cases hitems
      exact h
  | _ => simp [violations, scalarViolations]

/-! ## Objects -/

theorem memberViolations_eq_nil {key : String} {rule : Rule} {entries : Entries} :
    memberViolations key rule entries = [] ↔
      ∀ v, Value.lookup key entries = some v → Fits rule v := by
  induction entries with
  | nil => simp [memberViolations, Value.lookup]
  | cons e rest ih =>
    obtain ⟨k, v⟩ := e
    rw [memberViolations, Value.lookup]
    split
    · rw [List.map_eq_nil_iff]
      constructor
      · intro h v' hv'
        cases hv'
        exact h
      · exact fun h => h v rfl
    · exact ih

/-- The members of an object are as its shape says. -/
structure Shaped (shape : Shape) (entries : Entries) : Prop where
  known : ∀ e ∈ entries, ∃ m ∈ shape.members, m.key = e.1
  complete : ∀ m ∈ shape.members, m.required = true → ∃ v, Value.lookup m.key entries = some v
  fits : ∀ m ∈ shape.members, ∀ v, Value.lookup m.key entries = some v → Fits m.rule v

theorem exists_lookup_iff {key : String} {entries : Entries} :
    (∃ v, Value.lookup key entries = some v) ↔ key ∈ entries.map (·.1) := by
  induction entries with
  | nil => simp [Value.lookup]
  | cons e rest ih =>
    obtain ⟨k, v⟩ := e
    rw [Value.lookup, List.map_cons, List.mem_cons]
    by_cases hk : k = key
    · simp [hk]
    · rw [if_neg hk, ih]
      simp [Ne.symm hk]

theorem unexpectedMembers_eq_nil {shape : Shape} {entries : Entries} :
    unexpectedMembers shape (entries.map (·.1)) = [] ↔
      ∀ e ∈ entries, ∃ m ∈ shape.members, m.key = e.1 := by
  have hnone : unexpectedMembers shape (entries.map (·.1)) = [] ↔
      (entries.map (·.1)).filter (fun k => !shape.members.any (·.key == k)) = [] := by
    unfold unexpectedMembers
    split
    · rename_i hextra
      simp [hextra]
    · rename_i hextra
      exact ⟨(nomatch ·), fun h => (hextra h).elim⟩
  rw [hnone]
  simp [List.filter_eq_nil_iff]

theorem missingMembers_eq_nil {shape : Shape} {entries : Entries} :
    missingMembers shape (entries.map (·.1)) = [] ↔
      ∀ m ∈ shape.members, m.required = true → ∃ v, Value.lookup m.key entries = some v := by
  unfold missingMembers
  rw [List.map_eq_nil_iff, List.filter_eq_nil_iff]
  refine forall₂_congr fun m _ => ?_
  rw [exists_lookup_iff]
  simp

theorem fits_object {shape : Shape} {v : Value} :
    Fits (.object shape) v ↔ ∃ entries, v = .table entries ∧ Shaped shape entries := by
  unfold Fits
  cases v with
  | table entries =>
    rw [violations, List.append_eq_nil_iff, List.append_eq_nil_iff, unexpectedMembers_eq_nil,
      missingMembers_eq_nil, List.flatMap_eq_nil_iff]
    simp only [memberViolations_eq_nil]
    constructor
    · rintro ⟨⟨hknown, hcomplete⟩, hfits⟩
      exact ⟨entries, rfl, hknown, hcomplete, hfits⟩
    · rintro ⟨entries', hentries, hshaped⟩
      cases hentries
      exact ⟨⟨hshaped.known, hshaped.complete⟩, hshaped.fits⟩
  | _ => simp [violations, scalarViolations]

/-! ## Single values -/

theorem kindViolation_eq_nil {fits : Bool} {expected : List String} {v : Value} :
    kindViolation fits expected v = [] ↔ fits = true := by
  unfold kindViolation
  cases fits <;> simp

theorem signViolation_eq_nil {fits : Bool} {n : Number} :
    signViolation fits (.number n) = [] ↔ n.less 0 = false := by
  unfold signViolation
  cases hn : n.less 0 <;> simp [hn]

theorem fits_text {v : Value} : Fits .text v ↔ ∃ s, v = .text s := by
  unfold Fits
  cases v <;> simp [violations, scalarViolations, kindViolation]

theorem fits_filledText {v : Value} : Fits .filledText v ↔ ∃ s, v = .text s ∧ s ≠ "" := by
  unfold Fits
  cases v with
  | text s => simp [violations, scalarViolations, kindViolation]
  | _ => simp [violations, scalarViolations, kindViolation]

theorem fits_integer {v : Value} : Fits .integer v ↔ ∃ n, v = .number n ∧ n.isWhole = true := by
  unfold Fits
  cases v with
  | number n => simp [violations, scalarViolations, kindViolation_eq_nil, isInteger]
  | _ => simp [violations, scalarViolations, kindViolation_eq_nil, isInteger]

theorem fits_natural {v : Value} :
    Fits .natural v ↔ ∃ n, v = .number n ∧ n.isWhole = true ∧ n.less 0 = false := by
  unfold Fits
  cases v with
  | number n =>
    simp [violations, scalarViolations, kindViolation_eq_nil, signViolation_eq_nil, isInteger]
  | _ => simp [violations, scalarViolations, kindViolation_eq_nil, isInteger]

theorem fits_naturalOrNull {v : Value} :
    Fits .naturalOrNull v ↔
      v = .null ∨ ∃ n, v = .number n ∧ n.isWhole = true ∧ n.less 0 = false := by
  unfold Fits
  cases v with
  | null => simp [violations, scalarViolations, kindViolation_eq_nil, signViolation]
  | number n =>
    simp [violations, scalarViolations, kindViolation_eq_nil, signViolation_eq_nil, isInteger]
  | _ => simp [violations, scalarViolations, kindViolation_eq_nil, isInteger]

theorem fits_flag {v : Value} : Fits .flag v ↔ ∃ b, v = .bool b := by
  unfold Fits
  cases v <;> simp [violations, scalarViolations, kindViolation]

theorem fits_oneOf {words : List String} {v : Value} :
    Fits (.oneOf words) v ↔ ∃ s, v = .text s ∧ s ∈ words := by
  unfold Fits
  cases v with
  | text s => simp [violations, scalarViolations]
  | _ => simp [violations, scalarViolations]

end Interop.Schema
