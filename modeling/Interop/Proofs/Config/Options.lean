import Interop.Config.Options
import Interop.Proofs.Failing

/-!
# Reading sections

A table has something under any key, if only the alternative (`getOr_table`).  A configuration that
gives a policy is a table, and its `bindgen` section is one too.
-/

set_option autoImplicit false

namespace Interop.Config

open Value (Entries)

variable {config : Value} {p : Policy}

@[simp] theorem getOr_table (entries : Entries) (key : String) (alternative : Value) :
    getOr (.table entries) key alternative = .ok ((Value.lookup key entries).getD alternative) :=
  rfl

/-- Only a table has anything under a key. -/
theorem exists_table_of_getOr {v alternative found : Value} {key : String}
    (h : getOr v key alternative = .ok found) : ∃ entries, v = .table entries := by
  cases v with
  | table entries => exact ⟨entries, rfl⟩
  | _ => cases h

/-- The policy stands in the `bindgen` section. -/
theorem exists_section_of_policy (h : policy config = .ok p) :
    ∃ entries, sectionOf config "bindgen" = .ok (.table entries)
      ∧ ((Value.lookup "on_error" entries).getD (.text "abort") = .text "abort" ∧ p = .abort
        ∨ (Value.lookup "on_error" entries).getD (.text "abort") = .text "skip" ∧ p = .skip) := by
  unfold policy at h
  obtain ⟨bindgen, hbindgen, hrest⟩ := bind_eq_ok.mp h
  obtain ⟨found, hfound, hpolicy⟩ := bind_eq_ok.mp hrest
  have hgot := mapError_eq_ok.mp hfound
  obtain ⟨entries, rfl⟩ := exists_table_of_getOr hgot
  rw [getOr_table] at hgot
  refine ⟨entries, mapError_eq_ok.mp hbindgen, ?_⟩
  split at hpolicy
  · cases hpolicy
    exact .inl ⟨Except.ok.inj hgot, rfl⟩
  · cases hpolicy
    exact .inr ⟨Except.ok.inj hgot, rfl⟩
  · cases hpolicy

/-- A section is read from a table whenever there is a policy. -/
theorem exists_bindgen_of_policy {bindgen : Value} (h : policy config = .ok p)
    (hbindgen : sectionOrEmpty config "bindgen" = .ok bindgen) :
    ∃ entries, bindgen = .table entries := by
  obtain ⟨entries, hsection, -⟩ := exists_section_of_policy h
  unfold sectionOrEmpty at hbindgen
  split at hbindgen
  · rw [hsection] at hbindgen
    exact ⟨entries, (Except.ok.inj hbindgen).symm⟩
  · exact ⟨[], (Except.ok.inj hbindgen).symm⟩

end Interop.Config
