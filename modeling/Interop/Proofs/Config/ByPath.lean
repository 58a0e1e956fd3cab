import Interop.Config.Default
import Interop.Config.Merge
import Interop.Proofs.Failing
import Interop.Proofs.Value.Paths

/-!
# Layers of configuration, path by path

Merging goes down two layers at once.  What comes out can be said without following it down: at each
path there is what the upper layer has, and what the lower one has where the upper one has nothing
(`Over.laidOver`).  It does not go through exactly if some path leads to a table in one layer and to
something else in the other, and then it names the first such path in the order of the lower layer
(`merge_eq_error`).
-/

set_option autoImplicit false

namespace Interop.Config

open Value (Entries entryPaths keys leaf? keysAt lookup_append lookup_eq_none_iff mem_of_lookup
  lookup_of_mem exists_cons_of_mem_entryPaths paths_leaf at?_table_cons at?_leaf_cons isTable_iff)

/-! ## The steps of a merge -/

/-- A value laid over another one: two tables are merged, and of two values that are no tables the
upper one counts. -/
inductive Over : Value → Value → Value → Prop
  | tables {user base entries : Entries} (merged : merge user base = .ok entries) :
      Over (.table user) (.table base) (.table entries)
  | leaves {upper lower : Value} (upper_leaf : upper.isTable = false)
      (lower_leaf : lower.isTable = false) : Over upper lower upper

/-- What there is in two layers, and in the one laid over the other. -/
inductive OverAt : Option Value → Option Value → Option Value → Prop
  | lower (lower : Option Value) : OverAt none lower lower
  | upper (upper : Value) : OverAt (some upper) none (some upper)
  | both {upper lower v : Value} (laid : Over upper lower v) :
      OverAt (some upper) (some lower) (some v)

section Steps

variable {key : String} {user base entries : Entries} {upper lower v : Value}

@[simp] theorem mergeValue_none (key : String) (lower : Value) :
    mergeValue key none lower = .ok lower := by
  cases lower <;> rfl

theorem mergeValue_tables (key : String) (user base : Entries) :
    mergeValue key (some (.table user)) (.table base) = (merge user base).map .table := by
  rw [mergeValue, merge]
  cases mergeEntries user base <;> rfl

theorem mergeValue_leaves (key : String) (hupper : upper.isTable = false)
    (hlower : lower.isTable = false) : mergeValue key (some upper) lower = .ok upper := by
  cases lower with
  | table base => cases hlower
  | _ =>
    cases upper with
    | table user => cases hupper
    | _ => rfl

theorem mergeValue_clash (key : String) (h : upper.isTable ≠ lower.isTable) :
    mergeValue key (some upper) lower = .error ⟨key, upper.kindName, lower.kindName⟩ := by
  cases lower with
  | table base =>
    cases upper with
    | table user => exact absurd rfl h
    | _ => rfl
  | _ =>
    cases upper with
    | table user => rfl
    | _ => exact absurd rfl h

theorem mergeValue_eq_ok :
    mergeValue key (some upper) lower = .ok v ↔ Over upper lower v := by
  constructor
  · intro h
    by_cases hkinds : upper.isTable = lower.isTable
    · cases hlower : lower.isTable with
      | false =>
        have hupper : upper.isTable = false := hkinds.trans hlower
        rw [mergeValue_leaves key hupper hlower] at h
        cases h
        exact .leaves hupper hlower
      | true =>
        obtain ⟨user, rfl⟩ := isTable_iff.mp (hkinds.trans hlower)
        obtain ⟨base, rfl⟩ := isTable_iff.mp hlower
        rw [mergeValue_tables] at h
        cases hmerged : merge user base with
        | error m =>
          rw [hmerged] at h
          cases h
        | ok entries =>
          rw [hmerged] at h
          cases h
          exact .tables hmerged
    · rw [mergeValue_clash key hkinds] at h
      cases h
  · intro h
    cases h with
    | tables hmerged =>
      rw [mergeValue_tables, hmerged]
      rfl
    | leaves hupper hlower => exact mergeValue_leaves key hupper hlower

/-- What a merge leaves under a key of the lower layer. -/
theorem lookup_of_mergeEntries (h : mergeEntries user base = .ok entries) (key : String) :
    (Value.lookup key base = none ∧ Value.lookup key entries = none)
      ∨ ∃ lower v, Value.lookup key base = some lower ∧ Value.lookup key entries = some v
        ∧ mergeValue key (Value.lookup key user) lower = .ok v := by
  induction base generalizing entries with
  | nil =>
    cases h
    exact .inl ⟨rfl, rfl⟩
  | cons e rest ih =>
    obtain ⟨k, lower⟩ := e
    obtain ⟨v, hv, h⟩ := bind_eq_ok.mp h
    obtain ⟨merged, hmerged, h⟩ := bind_eq_ok.mp h
    cases h
    simp only [Value.lookup]
    by_cases hk : k = key
    · subst hk
      exact .inr ⟨lower, v, if_pos rfl, if_pos rfl, hv⟩
    · simp only [if_neg hk]
      exact ih hmerged

theorem keys_mergeEntries (h : mergeEntries user base = .ok entries) :
    entries.map Prod.fst = base.map Prod.fst := by
  induction base generalizing entries with
  | nil =>
    cases h
    rfl
  | cons e rest ih =>
    obtain ⟨v, -, h⟩ := bind_eq_ok.mp h
    obtain ⟨merged, hmerged, h⟩ := bind_eq_ok.mp h
    cases h
    rw [List.map_cons, List.map_cons, ih hmerged]

theorem lookup_ownEntries (key : String) (user base : Entries) :
    Value.lookup key (ownEntries user base)
      = if (Value.lookup key base).isNone then Value.lookup key user else none := by
  unfold ownEntries
  induction user with
  | nil => simp [Value.lookup]
  | cons e rest ih =>
    obtain ⟨k, w⟩ := e
    by_cases hk : k = key
    · subst hk
      cases hbase : (Value.lookup k base).isNone with
      | true => simp [hbase, Value.lookup]
      | false => simpa [List.filter_cons, hbase] using ih
    · cases hown : (Value.lookup k base).isNone with
      | true => simpa [List.filter_cons, hown, Value.lookup, hk] using ih
      | false => simpa [List.filter_cons, hown, Value.lookup, hk] using ih

theorem keys_ownEntries (user base : Entries) :
    (ownEntries user base).map Prod.fst
      = (user.map Prod.fst).filter fun k => k ∉ base.map Prod.fst := by
  have hown : (fun e : String × Value => (Value.lookup e.1 base).isNone)
      = (fun k => decide (k ∉ base.map Prod.fst)) ∘ Prod.fst := by
    funext e
    rw [Function.comp_apply, Bool.eq_iff_iff, decide_eq_true_iff, ← lookup_eq_none_iff,
      Option.isNone_iff_eq_none]
  rw [ownEntries, hown, List.filter_map]

theorem keys_merge (h : merge user base = .ok entries) :
    entries.map Prod.fst
      = base.map Prod.fst ++ (user.map Prod.fst).filter fun k => k ∉ base.map Prod.fst := by
  obtain ⟨merged, hmerged, h⟩ := bind_eq_ok.mp h
  cases h
  rw [List.map_append, keys_mergeEntries hmerged, keys_ownEntries]

theorem overAt_merge (h : merge user base = .ok entries) (key : String) :
    OverAt (Value.lookup key user) (Value.lookup key base) (Value.lookup key entries) := by
  obtain ⟨merged, hmerged, h⟩ := bind_eq_ok.mp h
  cases h
  rw [lookup_append, lookup_ownEntries]
  rcases lookup_of_mergeEntries hmerged key with ⟨hbase, hnone⟩ | ⟨lower, v, hbase, hv, hvalue⟩
  · rw [hbase, hnone]
    cases Value.lookup key user with
    | none => exact .lower none
    | some upper => exact .upper upper
  · rw [hbase, hv]
    cases huser : Value.lookup key user with
    | none =>
      rw [huser, mergeValue_none] at hvalue
      cases hvalue
      exact .lower _
    | some upper =>
      rw [huser] at hvalue
      exact .both (mergeValue_eq_ok.mp hvalue)

/-- A layer lies over another at every path. -/
theorem Over.overAt (h : Over upper lower v) (path : List String) :
    OverAt (upper.at? path) (lower.at? path) (v.at? path) := by
  induction path generalizing upper lower v with
  | nil => exact .both h
  | cons key path ih =>
    cases h with
    | leaves hupper hlower =>
      rw [at?_leaf_cons hupper, at?_leaf_cons hlower]
      exact .lower none
    | @tables user base entries hmerged =>
      simp only [at?_table_cons]
      have hkey := overAt_merge hmerged key
      generalize Value.lookup key user = x at hkey ⊢
      generalize Value.lookup key base = y at hkey ⊢
      generalize Value.lookup key entries = z at hkey ⊢
      cases hkey with
      | lower => exact .lower _
      | upper u =>
        simp only [Option.bind_some, Option.bind_none]
        cases u.at? path with
        | none => exact .lower none
        | some w => exact .upper w
      | both hover => exact ih hover

end Steps

/-! ## What comes out -/

/-- The value of one layer over another, told path by path. -/
structure LaidOver (upper lower v : Value) : Prop where
  leaf : ∀ path, v.leaf? path = (upper.leaf? path).or (lower.leaf? path)
  table : ∀ path, v.HasTable path ↔ upper.HasTable path ∨ lower.HasTable path
  keys : ∀ path, v.keysAt path
    = lower.keysAt path ++ (upper.keysAt path).filter fun k => k ∉ lower.keysAt path
  nodup : ∀ path, (v.keysAt path).Nodup

theorem keys_leaf {v : Value} (h : v.isTable = false) : v.keys = [] := by
  cases v with
  | table entries => cases h
  | _ => rfl

section Outcome

variable {x y z : Option Value}

theorem OverAt.leaf (h : OverAt x y z) : z.filter (fun v => !v.isTable)
    = (x.filter fun v => !v.isTable).or (y.filter fun v => !v.isTable) := by
  cases h with
  | lower => rfl
  | upper => simp
  | both hover =>
    cases hover with
    | tables hmerged => rfl
    | leaves hupper hlower =>
      rw [Option.filter, hupper]
      rfl

theorem OverAt.table (h : OverAt x y z) : (∃ entries, z = some (.table entries))
    ↔ (∃ entries, x = some (.table entries)) ∨ ∃ entries, y = some (.table entries) := by
  cases h with
  | lower => simp
  | upper => simp
  | both hover =>
    cases hover with
    | tables hmerged => simp
    | @leaves upper lower hupper hlower =>
      constructor
      · intro h
        exact .inl h
      · rintro (h | ⟨entries, h⟩)
        · exact h
        · cases h
          cases hlower

theorem OverAt.keys (h : OverAt x y z) : (z.map Value.keys).getD []
    = (y.map Value.keys).getD []
      ++ ((x.map Value.keys).getD []).filter fun k => k ∉ (y.map Value.keys).getD [] := by
  cases h with
  | lower => simp
  | upper => simp
  | both hover =>
    cases hover with
    | tables hmerged => exact keys_merge hmerged
    | leaves hupper hlower => simp [keys_leaf hupper, keys_leaf hlower]

theorem Over.laidOver {upper lower v : Value} (h : Over upper lower v) (hupper : upper.Keyed)
    (hlower : lower.Keyed) : LaidOver upper lower v where
  leaf path := (h.overAt path).leaf
  table path := (h.overAt path).table
  keys path := (h.overAt path).keys
  nodup path := by
    have hkeys : v.keysAt path = _ := (h.overAt path).keys
    rw [hkeys]
    refine (Value.keyed_iff.mp hlower path).append ((Value.keyed_iff.mp hupper path).filter _) ?_
    intro k hk hown
    exact of_decide_eq_true (List.mem_filter.mp hown).2 hk

end Outcome

/-! ## What does not fit -/

/-- Both layers have tables above the path and a value at its end, and one of these is a table while
the other is none. -/
structure Clash (upper lower : Value) (path : List String) : Prop where
  above : ∀ front back, path = front ++ back → back ≠ [] →
    upper.HasTable front ∧ lower.HasTable front
  kinds : ∃ u l, upper.at? path = some u ∧ lower.at? path = some l ∧ u.isTable ≠ l.isTable

/-- The clash that comes first in the order of the lower layer. -/
def FirstClash (upper lower : Value) (path : List String) : Prop :=
  ∃ before after, lower.paths = before ++ path :: after ∧ Clash upper lower path
    ∧ ∀ p ∈ before, ¬ Clash upper lower p

/-- A mismatch is named by the last key of a path, and tells the kinds of both values there. -/
structure Mismatch.Names (m : Mismatch) (upper lower : Value) (path : List String) : Prop where
  key : path.getLast? = some m.key
  userKind : (upper.at? path).map Value.kindName = some m.userKind
  defaultKind : (lower.at? path).map Value.kindName = some m.defaultKind

/-- The mismatch at a path, of values that stand under a key. -/
def mismatch? (key : String) (upper lower : Value) (path : List String) : Option Mismatch :=
  match upper.at? path, lower.at? path with
  | some u, some l =>
    if u.isTable = l.isTable then none
    else some ⟨path.getLast?.getD key, u.kindName, l.kindName⟩
  | _, _ => none

section Failure

variable {key : String} {user base : Entries} {upper lower : Value} {path : List String}

/-- What is found at a path stands in tables all the way up. -/
theorem clash_iff : Clash upper lower path ↔
    ∃ u l, upper.at? path = some u ∧ lower.at? path = some l ∧ u.isTable ≠ l.isTable := by
  constructor
  · intro h
    exact h.kinds
  · rintro ⟨u, l, hu, hl, hkinds⟩
    refine ⟨?_, u, l, hu, hl, hkinds⟩
    rintro front back rfl hback
    exact ⟨Value.hasTable_of_at?_append hback hu, Value.hasTable_of_at?_append hback hl⟩

theorem mismatch?_eq_none : mismatch? key upper lower path = none ↔ ¬ Clash upper lower path := by
  rw [clash_iff, mismatch?]
  cases upper.at? path with
  | none => simp
  | some u =>
    cases lower.at? path with
    | none => simp
    | some l => by_cases hkinds : u.isTable = l.isTable <;> simp [hkinds]

theorem mismatch?_eq_some (hpath : path ≠ []) {m : Mismatch} :
    mismatch? key upper lower path = some m ↔ Clash upper lower path ∧ m.Names upper lower path := by
  obtain ⟨last, hlast⟩ : ∃ last, path.getLast? = some last :=
    ⟨_, List.getLast?_eq_some_getLast hpath⟩
  constructor
  · intro h
    have hclash : Clash upper lower path := by
      by_contra hnone
      rw [mismatch?_eq_none.mpr hnone] at h
      cases h
    refine ⟨hclash, ?_⟩
    obtain ⟨u, l, hu, hl, hkinds⟩ := hclash.kinds
    rw [mismatch?, hu, hl] at h
    simp only [if_neg hkinds, Option.some.injEq] at h
    subst h
    exact ⟨by simp [hlast], by rw [hu]; rfl, by rw [hl]; rfl⟩
  · rintro ⟨hclash, hnames⟩
    obtain ⟨u, l, hu, hl, hkinds⟩ := hclash.kinds
    obtain ⟨lastKey, userKind, defaultKind⟩ := m
    obtain ⟨hkey, huser, hdefault⟩ := hnames
    rw [hu] at huser
    rw [hl] at hdefault
    rw [mismatch?, hu, hl]
    simp only [Option.map_some, Option.some.injEq] at huser hdefault
    simp only [if_neg hkinds, hkey, Option.getD_some, huser, hdefault]

theorem findSome?_eq_of_mem {α β : Type} {f g : α → Option β} {xs : List α}
    (h : ∀ x ∈ xs, f x = g x) : xs.findSome? f = xs.findSome? g := by
  induction xs with
  | nil => rfl
  | cons x xs ih =>
    obtain ⟨hx, hxs⟩ := List.forall_mem_cons.mp h
    rw [List.findSome?_cons, List.findSome?_cons, hx, ih hxs]

/-- Under a key that both layers have, the mismatches are those of the two values. -/
theorem mismatch?_both {k : String} (hupper : Value.lookup k user = some upper)
    (hlower : Value.lookup k base = some lower) (path : List String) :
    mismatch? key (.table user) (.table base) (k :: path) = mismatch? k upper lower path := by
  rw [mismatch?, Value.at?_found hupper, Value.at?_found hlower, List.getLast?_cons,
    Option.getD_some, mismatch?]

theorem mismatch?_absent {k : String} (h : Value.lookup k user = none) (path : List String) :
    mismatch? key (.table user) (.table base) (k :: path) = none := by
  rw [mismatch?, at?_table_cons, h]
  rfl

/-- Under a key that the first entry does not have, the mismatches are those with the rest. -/
theorem mismatch?_rest {k : String} (hk : k ∉ base.map Prod.fst) (hpath : path ∈ entryPaths base)
    (l : Value) : mismatch? key (.table user) (.table ((k, l) :: base)) path
      = mismatch? key (.table user) (.table base) path := by
  obtain ⟨k', hk', rest, rfl⟩ := exists_cons_of_mem_entryPaths hpath
  have hne : k ≠ k' := fun h => hk (h ▸ hk')
  rw [mismatch?, mismatch?, at?_table_cons, at?_table_cons, at?_table_cons, Value.lookup,
    if_neg hne]

theorem merge_eq_error_iff {m : Mismatch} :
    merge user base = .error m ↔ mergeEntries user base = .error m := by
  rw [merge, bind_eq_error]
  simp

end Failure

-- Both layers are taken apart along the lower one: a value by its kind, entries one by one.  The
-- first mismatch of an entry is looked for before those of the entries after it.
mutual

theorem mergeValue_eq_error {key : String} {upper : Value} : ∀ {lower : Value}, lower.Keyed →
    ∀ {m : Mismatch}, mergeValue key (some upper) lower = .error m
      ↔ lower.paths.findSome? (mismatch? key upper lower) = some m
  | .table base, hkeyed, m => by
    rw [Value.paths, List.findSome?_cons]
    by_cases hupper : upper.isTable = true
    · obtain ⟨user, rfl⟩ := isTable_iff.mp hupper
      rw [mergeValue_tables, map_eq_error, merge_eq_error_iff, mergeEntries_eq_error hkeyed]
      rfl
    · have hclash : upper.isTable ≠ (Value.table base).isTable := hupper
      rw [mergeValue_clash key hclash]
      have hroot : mismatch? key upper (.table base) []
          = some ⟨key, upper.kindName, (Value.table base).kindName⟩ := if_neg hclash
      rw [hroot]
      simp
  | .null, _, m | .bool _, _, m | .number _, _, m | .text _, _, m | .stamp _, _, m
  | .list _, _, m => by
    rw [paths_leaf rfl]
    cases upper <;> simp [mergeValue, mismatch?, Value.at?, Value.isTable, Value.kindName]

theorem mergeEntries_eq_error {key : String} {user : Entries} : ∀ {base : Entries},
    (Value.table base).Keyed → ∀ {m : Mismatch}, mergeEntries user base = .error m
      ↔ (entryPaths base).findSome? (mismatch? key (.table user) (.table base)) = some m
  | [], _, m => by simp [mergeEntries, entryPaths]
  | (k, lower) :: rest, hkeyed, m => by
    obtain ⟨hk, hrest⟩ := List.nodup_cons.mp hkeyed.nodup
    have hlookup : Value.lookup k ((k, lower) :: rest) = some lower := if_pos rfl
    have hkeyedLower : lower.Keyed := hkeyed.found hlookup
    have hkeyedRest : (Value.table rest).Keyed := by
      cases hkeyed with
      | table _ values => exact .table hrest fun e he => values e (List.mem_cons_of_mem _ he)
      | leaf hleaf => cases hleaf
    have hlater : (entryPaths rest).findSome? (mismatch? key (.table user) (.table ((k, lower) :: rest)))
        = (entryPaths rest).findSome? (mismatch? key (.table user) (.table rest)) := by
      refine findSome?_eq_of_mem fun path hpath => mismatch?_rest hk hpath lower
    rw [mergeEntries, bind_eq_error, entryPaths, List.findSome?_append, List.findSome?_map,
      Option.or_eq_some_iff, hlater, ← mergeEntries_eq_error hkeyedRest]
    cases huser : Value.lookup k user with
    | none =>
      -- What the user leaves out clashes with nothing.
      have hnone : lower.paths.findSome?
          (mismatch? key (.table user) (.table ((k, lower) :: rest)) ∘ (k :: ·)) = none :=
        List.findSome?_eq_none_iff.mpr fun path _ => mismatch?_absent huser path
      rw [hnone]
      simp [bind_eq_error]
    | some upper =>
      have hboth : mismatch? key (.table user) (.table ((k, lower) :: rest)) ∘ (k :: ·)
          = mismatch? k upper lower := funext fun path => mismatch?_both huser hlookup path
      rw [hboth]
      constructor
      -- The first entry is merged first: its mismatch counts before those of the rest.
      · rintro (h | ⟨v, hv, h⟩)
        · exact .inl ((mergeValue_eq_error hkeyedLower).mp h)
        · rcases bind_eq_error.mp h with h | ⟨_, _, h⟩
          · refine .inr ⟨?_, h⟩
            by_contra hfound
            obtain ⟨m', hm'⟩ := Option.ne_none_iff_exists'.mp hfound
            rw [(mergeValue_eq_error hkeyedLower).mpr hm'] at hv
            cases hv
          · cases h
      · rintro (h | ⟨hnone, h⟩)
        · exact .inl ((mergeValue_eq_error hkeyedLower).mpr h)
        · cases hv : mergeValue k (some upper) lower with
          | error m' =>
            rw [(mergeValue_eq_error hkeyedLower).mp hv] at hnone
            cases hnone
          | ok v => exact .inr ⟨v, rfl, bind_eq_error.mpr (.inl h)⟩

end

section Result

variable {user base : Entries} {path : List String}

theorem clash_ne_nil (h : Clash (.table user) (.table base) path) : path ≠ [] := by
  rintro rfl
  obtain ⟨u, l, hu, hl, hkinds⟩ := h.kinds
  cases hu
  cases hl
  exact hkinds rfl

/-- Merging ends with the first mismatch on the paths of the lower layer. -/
theorem merge_eq_error_find (hbase : (Value.table base).Keyed) {m : Mismatch} :
    merge user base = .error m
      ↔ (Value.table base).paths.findSome? (mismatch? "" (.table user) (.table base)) = some m := by
  have hroot : mismatch? "" (.table user) (.table base) [] = none := rfl
  rw [merge_eq_error_iff, mergeEntries_eq_error hbase, Value.paths, List.findSome?_cons, hroot]

theorem merge_fails_iff (hbase : (Value.table base).Keyed) :
    (∃ m, merge user base = .error m) ↔ ∃ path, Clash (.table user) (.table base) path := by
  have hfind : (∃ m, merge user base = .error m) ↔ ∃ path ∈ (Value.table base).paths,
      (mismatch? "" (.table user) (.table base) path).isSome = true := by
    simp only [merge_eq_error_find hbase, ← Option.isSome_iff_exists, List.findSome?_isSome_iff]
  rw [hfind]
  constructor
  · rintro ⟨path, -, hsome⟩
    refine ⟨path, ?_⟩
    by_contra hnone
    rw [mismatch?_eq_none.mpr hnone] at hsome
    cases hsome
  · rintro ⟨path, hclash⟩
    obtain ⟨u, l, -, hl, -⟩ := hclash.kinds
    refine ⟨path, Value.mem_paths hl, Option.isSome_iff_ne_none.mpr fun hnone => ?_⟩
    exact mismatch?_eq_none.mp hnone hclash

/-- Merging ends with the first clash, and names it. -/
theorem merge_eq_error (hbase : (Value.table base).Keyed) {m : Mismatch} :
    merge user base = .error m ↔ ∃ path, FirstClash (.table user) (.table base) path
      ∧ m.Names (.table user) (.table base) path := by
  rw [merge_eq_error_find hbase, List.findSome?_eq_some_iff]
  constructor
  · rintro ⟨before, path, after, hsplit, hm, hbefore⟩
    have hpath : path ≠ [] := by
      rintro rfl
      cases hm
    obtain ⟨hclash, hnames⟩ := (mismatch?_eq_some hpath).mp hm
    have hfirst (p : List String) (hp : p ∈ before) : ¬ Clash (.table user) (.table base) p :=
      mismatch?_eq_none.mp (hbefore p hp)
    exact ⟨path, ⟨before, after, hsplit, hclash, hfirst⟩, hnames⟩
  · rintro ⟨path, ⟨before, after, hsplit, hclash, hbefore⟩, hnames⟩
    refine ⟨before, path, after, hsplit, ?_, fun p hp => mismatch?_eq_none.mpr (hbefore p hp)⟩
    exact (mismatch?_eq_some (clash_ne_nil hclash)).mpr ⟨hclash, hnames⟩

end Result

/-- **Merging is a matter of paths.**  A layer does not fit over another one exactly if some path
clashes, and the first clash in the order of the lower layer is the one that is named.  Otherwise
every path leads to what the upper layer has there, and to what the lower one has where the upper one
has nothing; and in every table the keys of the lower layer come first, in its order, and then those
that only the upper layer has, in theirs. -/
theorem merge_by_path {user base : Entries} (huser : (Value.table user).Keyed)
    (hbase : (Value.table base).Keyed) :
    ((∃ m, merge user base = .error m) ↔ ∃ path, Clash (.table user) (.table base) path)
      ∧ (∀ m, merge user base = .error m ↔ ∃ path, FirstClash (.table user) (.table base) path
        ∧ m.Names (.table user) (.table base) path)
      ∧ ∀ entries, merge user base = .ok entries →
        LaidOver (.table user) (.table base) (.table entries) := by
  refine ⟨merge_fails_iff hbase, fun m => merge_eq_error hbase, ?_⟩
  intro entries hmerged
  exact (Over.tables hmerged).laidOver huser hbase

/-! Two layers over the default one.  In the first, a key that comes late among the defaults clashes
before one that comes early; the second adds a table to a table. -/

def clashingLayer : Entries :=
  [("logging", .text "quiet"), ("bindgen", .table [("usings", .table [("System", .bool true)])])]

def limitedLayer : Entries :=
  [("mapping", .table [("limits", .table [("depth", .int 2)]), ("max_workers", .int 4)]),
   ("title", .text "sample")]

theorem defaults_keyed : (Value.table defaults).Keyed := by
  refine .table (by decide) ?_
  simp only [defaults, List.forall_mem_cons]
  refine ⟨.flat (by decide) (by decide), .flat (by decide) (by decide),
    .flat (by decide) (by decide), by simp⟩

theorem clashingLayer_keyed : (Value.table clashingLayer).Keyed := by
  refine .table (by decide) ?_
  simp only [clashingLayer, List.forall_mem_cons]
  refine ⟨.leaf rfl, .table (by decide) ?_, by simp⟩
  simp only [List.forall_mem_cons]
  exact ⟨.flat (by decide) (by decide), by simp⟩

theorem limitedLayer_keyed : (Value.table limitedLayer).Keyed := by
  refine .table (by decide) ?_
  simp only [limitedLayer, List.forall_mem_cons]
  refine ⟨.table (by decide) ?_, .leaf rfl, by simp⟩
  simp only [List.forall_mem_cons]
  exact ⟨.flat (by decide) (by decide), .leaf rfl, by simp⟩

theorem merge_by_path_defaults :
    merge clashingLayer defaults = .error ⟨"usings", "dict", "list"⟩
      ∧ (∃ path, FirstClash (.table clashingLayer) (.table defaults) path
        ∧ path.getLast? = some "usings")
      ∧ ∃ entries, merge limitedLayer defaults = .ok entries
        ∧ LaidOver (.table limitedLayer) (.table defaults) (.table entries)
        ∧ (Value.table entries).keysAt ["mapping"]
          = ["max_workers", "validate_layout", "boolean_type_name", "limits"] := by
  have hclash : merge clashingLayer defaults = .error ⟨"usings", "dict", "list"⟩ := rfl
  obtain ⟨path, hfirst, hnames⟩ :=
    ((merge_by_path clashingLayer_keyed defaults_keyed).2.1 _).mp hclash
  refine ⟨hclash, ⟨path, hfirst, hnames.key⟩, _, rfl, ?_, rfl⟩
  exact (merge_by_path limitedLayer_keyed defaults_keyed).2.2 _ rfl

end Interop.Config
