import Interop.Proofs.Config.ByPath
import Interop.Proofs.Config.Policy

/-!
# Configurations over the default one

Merging keeps every table of the default layer a table, and setting an option does too; so each
section of a configuration that a run gets is one (`Sectioned`).  With the check passed, a run finds
its policy, its options and a list of namespaces (`exists_usable`).
-/

set_option autoImplicit false

namespace Interop.Config

open Value (Entries)

/-! ## Sections -/

/-- The sections of a configuration. -/
def sectionNames : List String := ["bindgen", "mapping", "logging"]

/-- Every section is there and is a table. -/
def Sectioned (entries : Entries) : Prop :=
  ∀ name ∈ sectionNames, ∃ inner, Value.lookup name entries = some (.table inner)

theorem sectioned_defaults : Sectioned defaults := by
  intro name hname
  simp only [sectionNames, List.mem_cons, List.not_mem_nil, or_false] at hname
  rcases hname with rfl | rfl | rfl
  · exact ⟨_, rfl⟩
  · exact ⟨_, rfl⟩
  · exact ⟨_, rfl⟩

theorem sectioned_merge {user entries : Entries} (h : merge user defaults = .ok entries) :
    Sectioned entries := by
  intro name hname
  obtain ⟨table, htable⟩ := sectioned_defaults name hname
  exact (overAt_merge h name).table.mpr (.inr ⟨table, htable⟩)

theorem Sectioned.override {entries : Entries} (h : Sectioned entries) (part key : String)
    (value : Value) : Sectioned (override part key value entries) := by
  intro name hname
  obtain ⟨inner, hinner⟩ := h name hname
  by_cases hpart : name = part
  · subst hpart
    exact ⟨_, lookup_override_self hinner⟩
  · exact ⟨inner, by rw [lookup_override_of_ne hpart, hinner]⟩

theorem Sectioned.sectionOf {entries : Entries} (h : Sectioned entries) {name : String}
    (hname : name ∈ sectionNames) :
    ∃ inner, Config.sectionOf (.table entries) name = .ok (.table inner)
      ∧ Value.lookup name entries = some (.table inner) := by
  obtain ⟨inner, hinner⟩ := h name hname
  refine ⟨inner, ?_, hinner⟩
  unfold Config.sectionOf
  rw [getOr_table, hinner]
  rfl

theorem Sectioned.sectionOrEmpty {entries : Entries} (h : Sectioned entries) {name : String}
    (hname : name ∈ sectionNames) :
    ∃ inner, Config.sectionOrEmpty (.table entries) name = .ok (.table inner) := by
  obtain ⟨inner, hsection, hinner⟩ := h.sectionOf hname
  refine ⟨inner, ?_⟩
  cases entries with
  | nil => cases hinner
  | cons e rest => exact hsection

/-! ## The check -/

/-- What a run asks of a configuration. -/
structure Usable (entries inner : Entries) (p : Policy) (o : Binding.Options) : Prop where
  found : HasSection (.table entries) inner
  policy : policy (.table entries) = .ok p
  options : loweringOptions (.table entries) = .ok o
  usings : Value.lookup "usings" inner = none
    ∨ ∃ items, Value.lookup "usings" inner = some (.list items)

/-- A configuration that has passed the check can be used. -/
theorem exists_usable {entries : Entries} (h : Sectioned entries)
    (hcheck : check (.table entries) = .ok ()) : ∃ inner p o, Usable entries inner p o := by
  obtain ⟨inner, hinner⟩ := h "bindgen" (by decide)
  have hfound : HasSection (.table entries) inner := ⟨entries, rfl, hinner⟩
  unfold check at hcheck
  obtain ⟨p, hpolicy, hcheck⟩ := bind_eq_ok.mp hcheck
  obtain ⟨o, hoptions, hcheck⟩ := bind_eq_ok.mp hcheck
  refine ⟨inner, p, o, hfound, hpolicy, mapError_eq_ok.mp hoptions, ?_⟩
  obtain ⟨bindgen, hbindgen, hcheck⟩ := bind_eq_ok.mp hcheck
  obtain rfl : .table inner = bindgen :=
    Except.ok.inj (hfound.sectionOf.symm.trans (mapError_eq_ok.mp hbindgen))
  obtain ⟨usings, husings, hlist⟩ := bind_eq_ok.mp hcheck
  have hget := mapError_eq_ok.mp husings
  rw [getOr_table] at hget
  cases hlookup : Value.lookup "usings" inner with
  | none => exact .inl rfl
  | some found =>
    rw [hlookup] at hget
    obtain rfl : found = usings := Except.ok.inj hget
    cases found with
    | list items => exact .inr ⟨items, rfl⟩
    | _ => cases hlist

end Interop.Config
