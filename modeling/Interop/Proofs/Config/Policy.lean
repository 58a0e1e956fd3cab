import Interop.Proofs.Config.Options

/-!
# The same configuration under another policy

`withPolicy` changes one option of the `bindgen` section.  Everything else that is looked up in the
configuration is found as before (`withPolicy_apart`), so nothing but the policy is different.
-/

set_option autoImplicit false

namespace Interop.Config

open Value (Entries)

/-! ## Overriding an option -/

variable {key other part : String} {value v : Value} {entries inner : Entries}

theorem lookup_override_of_ne (h : other ≠ part) (entries : Entries) :
    Value.lookup other (override part key value entries) = Value.lookup other entries := by
  induction entries with
  | nil => rfl
  | cons e rest ih =>
    obtain ⟨k, v⟩ := e
    have hskip : Value.lookup other ((k, v) :: override part key value rest)
        = Value.lookup other ((k, v) :: rest) := by
      rw [Value.lookup, Value.lookup, ih]
    cases v with
    | table inner =>
      rw [override]
      split
      · rename_i hk
        subst hk
        rw [Value.lookup, Value.lookup, if_neg (Ne.symm h), if_neg (Ne.symm h)]
      · exact hskip
    | _ => exact hskip

theorem lookup_override_self (h : Value.lookup part entries = some (.table inner)) :
    Value.lookup part (override part key value entries)
      = some (.table (Value.insert key value inner)) := by
  induction entries with
  | nil => cases h
  | cons e rest ih =>
    obtain ⟨k, v⟩ := e
    rw [Value.lookup] at h
    by_cases hk : k = part
    · rw [if_pos hk] at h
      cases h
      rw [override, if_pos hk, Value.lookup, if_pos hk]
    · rw [if_neg hk] at h
      have hrest : Value.lookup part ((k, v) :: override part key value rest)
          = some (.table (Value.insert key value inner)) := by
        rw [Value.lookup, if_neg hk, ih h]
      cases v with
      | table inner' =>
        rw [override, if_neg hk]
        exact hrest
      | _ => exact hrest

/-- Setting an option to what it is changes nothing. -/
theorem insert_eq_self (h : Value.lookup key inner = some value) :
    Value.insert key value inner = inner := by
  induction inner with
  | nil => cases h
  | cons e rest ih =>
    obtain ⟨k, v⟩ := e
    rw [Value.lookup] at h
    rw [Value.insert]
    by_cases hk : k = key
    · rw [if_pos hk] at h ⊢
      cases h
      rfl
    · rw [if_neg hk] at h ⊢
      rw [ih h]

theorem override_eq_self (h : Value.lookup part entries = some (.table inner))
    (hkey : Value.lookup key inner = some value) : override part key value entries = entries := by
  induction entries with
  | nil => cases h
  | cons e rest ih =>
    obtain ⟨k, v⟩ := e
    rw [Value.lookup] at h
    by_cases hk : k = part
    · rw [if_pos hk] at h
      cases h
      rw [override, if_pos hk, insert_eq_self hkey]
    · rw [if_neg hk] at h
      cases v with
      | table inner' => rw [override, if_neg hk, ih h]
      | _ => exact congrArg _ (ih h)

/-! ## Policies -/

def Policy.name : Policy → String
  | abort => "abort"
  | skip => "skip"

/-- The configuration with this policy. -/
def withPolicy (p : Policy) : Value → Value
  | .table entries => .table (override "bindgen" "on_error" (.text p.name) entries)
  | v => v

/-- A configuration whose `bindgen` section is a table, with these options. -/
structure HasSection (config : Value) (inner : Entries) : Prop where
  found : ∃ entries, config = .table entries ∧ Value.lookup "bindgen" entries = some (.table inner)

variable {config : Value} {p q : Policy}

/-- Who skips says so: the default is to abort. -/
theorem exists_hasSection_of_skip (h : policy config = .ok .skip) :
    ∃ inner, HasSection config inner ∧ Value.lookup "on_error" inner = some (.text "skip") := by
  obtain ⟨inner, hsection, ⟨-, ⟨⟩⟩ | ⟨hpolicy, -⟩⟩ := exists_section_of_policy h
  obtain ⟨entries, rfl⟩ := exists_table_of_getOr hsection
  refine ⟨inner, ⟨entries, rfl, ?_⟩, ?_⟩
  · unfold sectionOf at hsection
    rw [getOr_table] at hsection
    cases hlookup : Value.lookup "bindgen" entries with
    | none =>
      -- A section that is missing would be empty, and so have no policy.
      rw [hlookup] at hsection
      cases hsection
      simp [Value.lookup] at hpolicy
    | some found =>
      rw [hlookup] at hsection
      cases hsection
      rfl
  · cases hlookup : Value.lookup "on_error" inner with
    | none =>
      rw [hlookup] at hpolicy
      simp at hpolicy
    | some found =>
      rw [hlookup] at hpolicy
      exact congrArg some hpolicy

namespace HasSection

theorem isTruthy (h : HasSection config inner) : config.isTruthy = true := by
  obtain ⟨entries, rfl, hlookup⟩ := h.found
  cases entries with
  | nil => cases hlookup
  | cons e rest => rfl

theorem sectionOf (h : HasSection config inner) : sectionOf config "bindgen" = .ok (.table inner) := by
  obtain ⟨entries, rfl, hlookup⟩ := h.found
  unfold Config.sectionOf
  rw [getOr_table, hlookup]
  rfl

theorem sectionOrEmpty (h : HasSection config inner) :
    sectionOrEmpty config "bindgen" = .ok (.table inner) := by
  unfold Config.sectionOrEmpty
  rw [if_pos h.isTruthy, h.sectionOf]

theorem withPolicy (h : HasSection config inner) (p : Policy) :
    HasSection (withPolicy p config) (Value.insert "on_error" (.text p.name) inner) := by
  obtain ⟨entries, rfl, hlookup⟩ := h.found
  exact ⟨_, rfl, lookup_override_self hlookup⟩

theorem policy_withPolicy (h : HasSection config inner) (p : Policy) :
    policy (Config.withPolicy p config) = .ok p := by
  have hfound : getOr (.table (Value.insert "on_error" (.text p.name) inner)) "on_error"
      (.text "abort") = .ok (.text p.name) := by
    rw [getOr_table, Value.lookup_insert_self]
    rfl
  unfold policy
  rw [(h.withPolicy p).sectionOf]
  simp only [Except.mapError, ok_bind, hfound]
  cases p with
  | abort => rfl
  | skip => rfl

end HasSection

/-- A policy that a configuration has is not changed. -/
theorem withPolicy_skip (h : policy config = .ok .skip) : withPolicy .skip config = config := by
  obtain ⟨inner, hsection, hpolicy⟩ := exists_hasSection_of_skip h
  obtain ⟨entries, rfl, hlookup⟩ := hsection.found
  exact congrArg Value.table (override_eq_self hlookup hpolicy)

/-- Two configurations that agree on everything but the policy. -/
structure SameApart (config config' : Value) (inner inner' : Entries) : Prop where
  left : HasSection config inner
  right : HasSection config' inner'
  options : ∀ key, key ≠ "on_error" → Value.lookup key inner' = Value.lookup key inner
  mapping : sectionOrEmpty config' "mapping" = sectionOrEmpty config "mapping"

theorem HasSection.sameApart (h : HasSection config inner) (p : Policy) :
    SameApart config (Config.withPolicy p config) inner
      (Value.insert "on_error" (.text p.name) inner) := by
  refine ⟨h, h.withPolicy p, fun key hkey => Value.lookup_insert_of_ne hkey _ _, ?_⟩
  have htruthy := (h.withPolicy p).isTruthy
  unfold Config.sectionOrEmpty
  rw [if_pos htruthy, if_pos h.isTruthy]
  obtain ⟨entries, rfl, -⟩ := h.found
  unfold Config.sectionOf Config.withPolicy
  rw [getOr_table, getOr_table, lookup_override_of_ne (by decide)]

namespace SameApart

variable {config' : Value} {inner' : Entries}

theorem getOr (h : SameApart config config' inner inner') {key : String} (hkey : key ≠ "on_error")
    (alternative : Value) :
    getOr (.table inner') key alternative = getOr (.table inner) key alternative := by
  rw [getOr_table, getOr_table, h.options key hkey]

theorem loweringOptions (h : SameApart config config' inner inner') :
    loweringOptions config' = loweringOptions config := by
  unfold Config.loweringOptions
  rw [h.mapping]

end SameApart

end Interop.Config
