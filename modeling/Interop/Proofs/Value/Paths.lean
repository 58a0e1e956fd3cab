import Interop.Proofs.Value.Parts
import Mathlib.Data.List.Nodup

/-!
# Paths of keys

A path of keys leads through a table and the tables in it.  The paths say all there is to say about a
value: which of them lead to tables, what keys these have in which order, and what stands at the
end of the others (`eq_of_paths`).  Only where a table has a key twice do they say less, since the
second entry is never found; so this is about values in which no table has (`Keyed`).
-/

set_option autoImplicit false

namespace Interop.Value

/-! ## Entries -/

section Entries

variable {key : String} {v : Value} {entries : Entries}

theorem lookup_eq_none_iff : lookup key entries = none ↔ key ∉ entries.map Prod.fst := by
  induction entries with
  | nil => simp [lookup]
  | cons e rest ih =>
    obtain ⟨k, w⟩ := e
    by_cases hk : k = key
    · simp [lookup, hk]
    · simp [lookup, hk, ih, Ne.symm hk]

theorem mem_of_lookup (h : lookup key entries = some v) : (key, v) ∈ entries := by
  induction entries with
  | nil => cases h
  | cons e rest ih =>
    obtain ⟨k, w⟩ := e
    rw [lookup] at h
    split at h
    · next hk =>
      cases h
      subst hk
      exact List.mem_cons_self
    · exact List.mem_cons_of_mem _ (ih h)

theorem lookup_of_mem (hnodup : (entries.map Prod.fst).Nodup) (h : (key, v) ∈ entries) :
    lookup key entries = some v := by
  induction entries with
  | nil => cases h
  | cons e rest ih =>
    obtain ⟨k, w⟩ := e
    rw [List.map_cons, List.nodup_cons] at hnodup
    rcases List.mem_cons.mp h with he | hrest
    · cases he
      simp [lookup]
    · have hmem : key ∈ rest.map Prod.fst := List.mem_map_of_mem (f := Prod.fst) hrest
      have hk : k ≠ key := fun hk => hnodup.1 (hk ▸ hmem)
      rw [lookup, if_neg hk]
      exact ih hnodup.2 hrest

theorem lookup_append (key : String) (front back : Entries) :
    lookup key (front ++ back) = (lookup key front).or (lookup key back) := by
  induction front with
  | nil => rfl
  | cons e rest ih =>
    obtain ⟨k, w⟩ := e
    by_cases hk : k = key
    · simp [lookup, hk]
    · simp [lookup, hk, ih]

/-- Entries with the same keys in the same order and the same value under each key are the same. -/
theorem eq_of_lookup {entries' : Entries} (hnodup : (entries.map Prod.fst).Nodup)
    (hkeys : entries.map Prod.fst = entries'.map Prod.fst)
    (hvalues : ∀ k, lookup k entries = lookup k entries') : entries = entries' := by
  have hnodup' : (entries'.map Prod.fst).Nodup := hkeys ▸ hnodup
  -- At each place the keys agree, and the value is what is found under the key.
  refine List.ext_getElem (by simpa using congrArg List.length hkeys) fun i hi hi' => ?_
  have hkey : entries[i].1 = entries'[i].1 := by
    have hmap := congrArg (·[i]?) hkeys
    simpa [hi, hi'] using hmap
  have hfound : lookup entries[i].1 entries = some entries[i].2 :=
    lookup_of_mem hnodup (List.getElem_mem hi)
  have hfound' : lookup entries'[i].1 entries' = some entries'[i].2 :=
    lookup_of_mem hnodup' (List.getElem_mem hi')
  rw [hvalues, hkey, hfound'] at hfound
  exact Prod.ext hkey (Option.some.inj hfound).symm

end Entries

/-! ## What a path leads to -/

/-- The value at the end of a path. -/
def at? : List String → Value → Option Value
  | [], v => some v
  | key :: path, v => (v.member? key).bind (at? path)

def isTable : Value → Bool
  | table _ => true
  | _ => false

/-- The value at the end of a path, if that is no table. -/
def leaf? (path : List String) (v : Value) : Option Value :=
  (v.at? path).filter fun w => !w.isTable

/-- The path leads to a table. -/
def HasTable (v : Value) (path : List String) : Prop :=
  ∃ entries, v.at? path = some (.table entries)

def keys : Value → List String
  | table entries => entries.map Prod.fst
  | _ => []

/-- The keys of the table that a path leads to, in order; anything else has none. -/
def keysAt (path : List String) (v : Value) : List String := ((v.at? path).map keys).getD []

/-- No table that a path leads to has a key twice. -/
inductive Keyed : Value → Prop
  | table {entries : Entries} (nodup : (entries.map Prod.fst).Nodup)
      (values : ∀ e ∈ entries, Keyed e.2) : Keyed (.table entries)
  | leaf {v : Value} (leaf : v.isTable = false) : Keyed v

variable {v w : Value} {key : String} {entries : Entries}

theorem isTable_iff : v.isTable = true ↔ ∃ entries, v = .table entries := by
  cases v with
  | table entries => simp [isTable]
  | _ => simp [isTable]

theorem member?_of_leaf (h : v.isTable = false) (key : String) : v.member? key = none := by
  cases v with
  | table entries => cases h
  | _ => rfl

theorem at?_table_cons (key : String) (path : List String) (entries : Entries) :
    (Value.table entries).at? (key :: path) = (lookup key entries).bind (at? path) := rfl

theorem at?_leaf_cons (h : v.isTable = false) (key : String) (path : List String) :
    v.at? (key :: path) = none := by
  rw [at?, member?_of_leaf h]
  rfl

theorem at?_append (front back : List String) (v : Value) :
    v.at? (front ++ back) = (v.at? front).bind (at? back) := by
  induction front generalizing v with
  | nil => rfl
  | cons key front ih =>
    rw [List.cons_append, at?, at?]
    cases v.member? key with
    | none => rfl
    | some w => exact ih w

/-- Whatever is below a path stands in a table. -/
theorem hasTable_of_at?_append {front back : List String} (hback : back ≠ [])
    (h : v.at? (front ++ back) = some w) : v.HasTable front := by
  rw [at?_append] at h
  obtain ⟨x, hx, hw⟩ := Option.bind_eq_some_iff.mp h
  obtain ⟨key, path, rfl⟩ := List.exists_cons_of_ne_nil hback
  obtain ⟨y, hy, -⟩ := Option.bind_eq_some_iff.mp hw
  obtain ⟨entries, rfl⟩ := exists_table_of_member? hy
  exact ⟨entries, hx⟩

section Found

variable (h : lookup key entries = some w)

include h

theorem at?_found (path : List String) : (Value.table entries).at? (key :: path) = w.at? path := by
  rw [at?_table_cons, h]
  rfl

theorem leaf?_found (path : List String) :
    (Value.table entries).leaf? (key :: path) = w.leaf? path := by
  rw [leaf?, at?_found h, leaf?]

theorem hasTable_found (path : List String) :
    (Value.table entries).HasTable (key :: path) ↔ w.HasTable path := by
  rw [HasTable, at?_found h, HasTable]

theorem keysAt_found (path : List String) :
    (Value.table entries).keysAt (key :: path) = w.keysAt path := by
  rw [keysAt, at?_found h, keysAt]

theorem Keyed.found (hkeyed : (Value.table entries).Keyed) : w.Keyed := by
  cases hkeyed with
  | table _ values => exact values _ (mem_of_lookup h)
  | leaf hleaf => cases hleaf

end Found

theorem Keyed.nodup (h : (Value.table entries).Keyed) : (entries.map Prod.fst).Nodup := by
  cases h with
  | table nodup _ => exact nodup
  | leaf hleaf => cases hleaf

/-- A table without tables in it. -/
theorem Keyed.flat (hnodup : (entries.map Prod.fst).Nodup)
    (hleaf : ∀ e ∈ entries, e.2.isTable = false) : (Value.table entries).Keyed :=
  .table hnodup fun e he => .leaf (hleaf e he)

/-- Values are keyed when the keys of every table that a path leads to are distinct. -/
theorem keyed_iff : v.Keyed ↔ ∀ path, (v.keysAt path).Nodup := by
  constructor
  · intro h path
    induction path generalizing v with
    | nil =>
      cases v with
      | table entries => exact h.nodup
      | _ => exact .nil
    | cons key path ih =>
      cases hmember : v.member? key with
      | none => simp [keysAt, at?, hmember]
      | some w =>
        obtain ⟨entries, rfl⟩ := exists_table_of_member? hmember
        rw [keysAt_found hmember]
        exact ih (h.found hmember)
  · intro h
    -- Everything that is found is smaller, and with distinct keys every entry is found.
    induction hsize : sizeOf v using Nat.strongRecOn generalizing v with
    | _ size ih =>
      by_cases hleaf : v.isTable = false
      · exact .leaf hleaf
      obtain ⟨entries, rfl⟩ := isTable_iff.mp (by simpa using hleaf)
      have hnodup : (entries.map Prod.fst).Nodup := h []
      refine .table hnodup fun e he => ?_
      have hfound : lookup e.1 entries = some e.2 := lookup_of_mem hnodup he
      refine ih _ (hsize ▸ sizeOf_lookup_lt hfound) (fun path => ?_) rfl
      rw [← keysAt_found hfound]
      exact h (e.1 :: path)

/-- Two values with the same tables, the same keys in each of them and the same leaves are the
same. -/
theorem eq_of_paths (hv : v.Keyed) (hw : w.Keyed) (hleaf : ∀ path, v.leaf? path = w.leaf? path)
    (htable : ∀ path, v.HasTable path ↔ w.HasTable path)
    (hkeys : ∀ path, v.keysAt path = w.keysAt path) : v = w := by
  induction hv generalizing w with
  | @leaf v hv =>
    have hroot : v.leaf? [] = some v := by simp [leaf?, at?, hv]
    rw [hleaf] at hroot
    exact (Option.some.inj (Option.filter_eq_some_iff.mp hroot).1).symm
  | @table entries nodup values ih =>
    -- The empty path leads to the value itself, so both are tables with the same keys.
    obtain ⟨entries', hroot⟩ := (htable []).mp ⟨entries, rfl⟩
    obtain rfl : w = .table entries' := Option.some.inj hroot
    have hsame : entries.map Prod.fst = entries'.map Prod.fst := hkeys []
    congr 1
    refine eq_of_lookup nodup hsame fun key => ?_
    cases hx : lookup key entries with
    | none =>
      have hmem : key ∉ entries'.map Prod.fst := hsame ▸ lookup_eq_none_iff.mp hx
      exact (lookup_eq_none_iff.mpr hmem).symm
    | some x =>
      cases hy : lookup key entries' with
      | none =>
        have hmem : key ∉ entries.map Prod.fst := hsame ▸ lookup_eq_none_iff.mp hy
        rw [lookup_eq_none_iff.mpr hmem] at hx
        cases hx
      | some y =>
        congr 1
        refine ih _ (mem_of_lookup hx) (hw.found hy) (fun path => ?_) (fun path => ?_) fun path => ?_
        · rw [← leaf?_found hx, ← leaf?_found hy]
          exact hleaf (key :: path)
        · rw [← hasTable_found hx, ← hasTable_found hy]
          exact htable (key :: path)
        · rw [← keysAt_found hx, ← keysAt_found hy]
          exact hkeys (key :: path)

/-! ## All paths, depth first -/

mutual

/-- The paths of a value, each before the ones below it and those of an entry before those of the
next. -/
def paths : Value → List (List String)
  | .table entries => [] :: entryPaths entries
  | _ => [[]]

def entryPaths : List (String × Value) → List (List String)
  | [] => []
  | (key, v) :: rest => (paths v).map (key :: ·) ++ entryPaths rest

end

theorem paths_leaf (h : v.isTable = false) : v.paths = [[]] := by
  cases v with
  | table entries => cases h
  | _ => rfl

theorem mem_entryPaths {path : List String} (hw : (key, w) ∈ entries) (h : path ∈ w.paths) :
    key :: path ∈ entryPaths entries := by
  induction entries with
  | nil => cases hw
  | cons e rest ih =>
    obtain ⟨k, x⟩ := e
    rw [entryPaths, List.mem_append]
    rcases List.mem_cons.mp hw with he | hrest
    · cases he
      exact .inl (List.mem_map_of_mem h)
    · exact .inr (ih hrest)

theorem exists_cons_of_mem_entryPaths {path : List String} (h : path ∈ entryPaths entries) :
    ∃ key ∈ entries.map Prod.fst, ∃ rest, path = key :: rest := by
  induction entries with
  | nil => cases h
  | cons e rest ih =>
    obtain ⟨k, x⟩ := e
    rw [entryPaths, List.mem_append] at h
    rcases h with h | h
    · obtain ⟨path', -, rfl⟩ := List.mem_map.mp h
      exact ⟨k, List.mem_cons_self, path', rfl⟩
    · obtain ⟨key, hkey, hpath⟩ := ih h
      exact ⟨key, List.mem_cons_of_mem _ hkey, hpath⟩

/-- Every path that leads anywhere is among the paths of the value. -/
theorem mem_paths {path : List String} (h : v.at? path = some w) : path ∈ v.paths := by
  induction path generalizing v with
  | nil =>
    cases v with
    | table entries => exact List.mem_cons_self
    | _ => exact List.mem_cons_self
  | cons key path ih =>
    obtain ⟨x, hx, hpath⟩ := Option.bind_eq_some_iff.mp h
    obtain ⟨entries, rfl⟩ := exists_table_of_member? hx
    exact List.mem_cons_of_mem _ (mem_entryPaths (mem_of_lookup hx) (ih hpath))

end Interop.Value
