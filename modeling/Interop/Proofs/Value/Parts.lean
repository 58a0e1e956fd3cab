import Interop.Value.Basic

/-!
# Parts of a value

What is under a key of a table is smaller than the table, and so are the items of a list: facts
about documents of any depth are proved by induction on the size of the value.
-/

set_option autoImplicit false

namespace Interop.Value

/-- The value under a key; only a table has any. -/
def member? (key : String) : Value → Option Value
  | .table entries => lookup key entries
  | _ => none

theorem member?_table (key : String) (entries : Entries) :
    (Value.table entries).member? key = lookup key entries := rfl

theorem exists_table_of_member? {v w : Value} {key : String} (h : v.member? key = some w) :
    ∃ entries, v = .table entries := by
  cases v with
  | table entries => exact ⟨entries, rfl⟩
  | _ => cases h

theorem sizeOf_lookup_lt {key : String} {entries : Entries} {w : Value}
    (h : lookup key entries = some w) : sizeOf w < sizeOf (Value.table entries) := by
  have hlt : sizeOf w < sizeOf entries := by
    induction entries with
    | nil => cases h
    | cons e rest ih =>
      obtain ⟨k, v⟩ := e
      rw [lookup] at h
      split at h
      · cases h
        simp only [List.cons.sizeOf_spec, Prod.mk.sizeOf_spec]
        omega
      · have hrest := ih h
        simp only [List.cons.sizeOf_spec]
        omega
  simp only [Value.table.sizeOf_spec]
  omega

theorem sizeOf_item_lt {items : List Value} {w : Value} (h : w ∈ items) :
    sizeOf w < sizeOf (Value.list items) := by
  have hlt := List.sizeOf_lt_of_mem h
  simp only [Value.list.sizeOf_spec]
  omega

/-- The items of a list under a key are smaller than the table. -/
theorem sizeOf_member?_item_lt {v w : Value} {key : String} {items : List Value}
    (hitems : (v.member? key).getD (.list []) = .list items) (hw : w ∈ items) :
    sizeOf w < sizeOf v := by
  cases hmember : v.member? key with
  | none =>
    rw [hmember] at hitems
    cases hitems
    cases hw
  | some list =>
    rw [hmember] at hitems
    obtain rfl : list = .list items := hitems
    obtain ⟨entries, rfl⟩ := exists_table_of_member? hmember
    exact Nat.lt_trans (sizeOf_item_lt hw) (sizeOf_lookup_lt hmember)

end Interop.Value
