import Interop.Proofs.Config.ByPath

/-!
# Several layers

Three layers can be laid over each other from above or from below.  Whether they fit is a matter of
the kinds that they have at each path, and these compose like options do, the upper one first; so
both ways go through for the same layers (`merge_merge_iff`).  A value is made up of its leaves, its
tables and its keys, and each of these comes out the same both ways (`LaidOver.assoc`).

When layers do not fit, the two ways need not name the same key: each of them finds its own first
clash.
-/

set_option autoImplicit false

namespace Interop.Config

open Value (Entries)

/-! ## Layers that fit -/

/-- Whether there is a table at a path, if there is anything. -/
def kindAt (v : Value) (path : List String) : Option Bool := (v.at? path).map Value.isTable

/-- Of two kinds that are both there, none contradicts the other. -/
def Fits (x y : Option Bool) : Prop := ∀ s ∈ x, ∀ t ∈ y, s = t

section Kinds

variable {x y z : Option Bool}

@[simp] theorem fits_none_left (y : Option Bool) : Fits none y := by
  intro s hs
  cases hs

@[simp] theorem fits_none_right (x : Option Bool) : Fits x none := by
  intro s _ t ht
  cases ht

@[simp] theorem fits_some {s t : Bool} : Fits (some s) (some t) ↔ s = t := by
  simp [Fits]

/-- Three kinds fit from above when they fit from below. -/
theorem fits_assoc : Fits y z ∧ Fits x (y.or z) ↔ Fits x y ∧ Fits (x.or y) z := by
  cases x with
  | none => simp
  | some r =>
    cases y with
    | none => simp
    | some s =>
      cases z with
      | none => simp
      | some t =>
        simp only [Option.some_or, fits_some]
        constructor
        · rintro ⟨rfl, rfl⟩
          exact ⟨rfl, rfl⟩
        · rintro ⟨rfl, rfl⟩
          exact ⟨rfl, rfl⟩

theorem fits_or_self (h : Fits x y) : Fits x (x.or y) := by
  cases x with
  | none => simp
  | some s => simp

end Kinds

section Merging

variable {user base entries : Entries}

theorem OverAt.kind {x y z : Option Value} (h : OverAt x y z) :
    z.map Value.isTable = (x.map Value.isTable).or (y.map Value.isTable) := by
  cases h with
  | lower => rfl
  | upper => rfl
  | both hover =>
    cases hover with
    | tables => rfl
    | leaves => rfl

theorem kindAt_merge (h : merge user base = .ok entries) (path : List String) :
    kindAt (.table entries) path = (kindAt (.table user) path).or (kindAt (.table base) path) :=
  ((Over.tables h).overAt path).kind

theorem not_clash_iff {upper lower : Value} {path : List String} :
    ¬ Clash upper lower path ↔ Fits (kindAt upper path) (kindAt lower path) := by
  rw [clash_iff, kindAt, kindAt]
  cases upper.at? path with
  | none => simp
  | some u =>
    cases lower.at? path with
    | none => simp
    | some l => simp

/-- A layer goes over another when their kinds fit at every path. -/
theorem exists_merge_iff (user : Entries) (hbase : (Value.table base).Keyed) :
    (∃ entries, merge user base = .ok entries) ↔
      ∀ path, Fits (kindAt (.table user) path) (kindAt (.table base) path) := by
  have hfails : (∃ entries, merge user base = .ok entries) ↔ ¬ ∃ m, merge user base = .error m := by
    cases merge user base with
    | error m => simp
    | ok entries => simp
  rw [hfails, merge_fails_iff hbase, not_exists]
  exact forall_congr' fun path => not_clash_iff

theorem keyed_of_merge (huser : (Value.table user).Keyed) (hbase : (Value.table base).Keyed)
    (h : merge user base = .ok entries) : (Value.table entries).Keyed :=
  Value.keyed_iff.mpr ((Over.tables h).laidOver huser hbase).nodup

end Merging

/-! ## What comes out of several layers -/

/-- The keys of a table over those of another, and of the third over both. -/
theorem keys_assoc {α : Type} [DecidableEq α] (top middle bottom : List α) :
    (bottom ++ middle.filter (· ∉ bottom))
        ++ top.filter (· ∉ bottom ++ middle.filter (· ∉ bottom))
      = bottom ++ (middle ++ top.filter (· ∉ middle)).filter (· ∉ bottom) := by
  have hboth (k : α) : k ∉ bottom ++ middle.filter (· ∉ bottom) ↔ k ∉ bottom ∧ k ∉ middle := by
    simp only [List.mem_append, List.mem_filter, decide_eq_true_eq]
    tauto
  rw [List.append_assoc, List.filter_append, List.filter_filter]
  congr 2
  apply List.filter_congr
  intro k _
  simp only [hboth, Bool.decide_and]

/-- Laying a table over what it has been laid over brings no key that is not there. -/
theorem keys_again {α : Type} [DecidableEq α] (upper lower : List α) :
    upper.filter (· ∉ lower ++ upper.filter (· ∉ lower)) = [] := by
  rw [List.filter_eq_nil_iff]
  intro k hk
  simp only [List.mem_append, List.mem_filter, decide_eq_true_eq]
  tauto

section Laws

variable {u v w uv vw x y : Value}

/-- There is only one value of one layer over another. -/
theorem LaidOver.unique (hx : LaidOver u v x) (hy : LaidOver u v y) : x = y := by
  apply Value.eq_of_paths (Value.keyed_iff.mpr hx.nodup) (Value.keyed_iff.mpr hy.nodup)
  · intro path
    rw [hx.leaf, hy.leaf]
  · intro path
    rw [hx.table, hy.table]
  · intro path
    rw [hx.keys, hy.keys]

/-- A layer over two that lie over each other is a layer over the lowest one. -/
theorem LaidOver.assoc (hvw : LaidOver v w vw) (hx : LaidOver u vw x) (huv : LaidOver u v uv) :
    LaidOver uv w x where
  leaf path := by rw [hx.leaf, hvw.leaf, huv.leaf, Option.or_assoc]
  table path := by rw [hx.table, hvw.table, huv.table, or_assoc]
  keys path := by
    rw [hx.keys, hvw.keys, huv.keys]
    exact keys_assoc _ _ _
  nodup := hx.nodup

/-- A layer that has been laid over another lies over the outcome as well. -/
theorem LaidOver.again (h : LaidOver u v x) : LaidOver u x x where
  leaf path := by rw [h.leaf, ← Option.or_assoc, Option.or_self]
  table path := by rw [h.table, ← or_assoc, or_self]
  keys path := by
    have hown := keys_again (u.keysAt path) (v.keysAt path)
    rw [← h.keys] at hown
    rw [hown, List.append_nil]
  nodup := h.nodup

end Laws

/-! ## The laws of merging -/

section Layers

variable {a b c ab x : Entries}

theorem exists_merge_above_iff (hb : (Value.table b).Keyed) (hc : (Value.table c).Keyed) :
    (∃ x, (merge b c >>= merge a) = .ok x) ↔ ∀ path,
      Fits (kindAt (.table b) path) (kindAt (.table c) path)
        ∧ Fits (kindAt (.table a) path) ((kindAt (.table b) path).or (kindAt (.table c) path)) := by
  constructor
  · rintro ⟨x, hx⟩ path
    obtain ⟨bc, hbc, hx⟩ := bind_eq_ok.mp hx
    have hfits := (exists_merge_iff a (keyed_of_merge hb hc hbc)).mp ⟨x, hx⟩ path
    rw [kindAt_merge hbc] at hfits
    exact ⟨(exists_merge_iff b hc).mp ⟨bc, hbc⟩ path, hfits⟩
  · intro h
    obtain ⟨bc, hbc⟩ := (exists_merge_iff b hc).mpr fun path => (h path).1
    obtain ⟨x, hx⟩ := (exists_merge_iff a (keyed_of_merge hb hc hbc)).mpr fun path => by
      rw [kindAt_merge hbc]
      exact (h path).2
    exact ⟨x, bind_eq_ok.mpr ⟨bc, hbc, hx⟩⟩

theorem exists_merge_below_iff (hb : (Value.table b).Keyed) (hc : (Value.table c).Keyed) :
    (∃ x, (merge a b >>= fun ab => merge ab c) = .ok x) ↔ ∀ path,
      Fits (kindAt (.table a) path) (kindAt (.table b) path)
        ∧ Fits ((kindAt (.table a) path).or (kindAt (.table b) path)) (kindAt (.table c) path) := by
  constructor
  · rintro ⟨x, hx⟩ path
    obtain ⟨ab, hab, hx⟩ := bind_eq_ok.mp hx
    have hfits := (exists_merge_iff ab hc).mp ⟨x, hx⟩ path
    rw [kindAt_merge hab] at hfits
    exact ⟨(exists_merge_iff a hb).mp ⟨ab, hab⟩ path, hfits⟩
  · intro h
    obtain ⟨ab, hab⟩ := (exists_merge_iff a hb).mpr fun path => (h path).1
    obtain ⟨x, hx⟩ := (exists_merge_iff ab hc).mpr fun path => by
      rw [kindAt_merge hab]
      exact (h path).2
    exact ⟨x, bind_eq_ok.mpr ⟨ab, hab, hx⟩⟩

theorem eq_of_merge_merge {y : Entries} (ha : (Value.table a).Keyed) (hb : (Value.table b).Keyed)
    (hc : (Value.table c).Keyed) (hx : (merge b c >>= merge a) = .ok x)
    (hy : (merge a b >>= fun ab => merge ab c) = .ok y) : x = y := by
  obtain ⟨bc, hbc, hx⟩ := bind_eq_ok.mp hx
  obtain ⟨ab, hab, hy⟩ := bind_eq_ok.mp hy
  have hlower := (Over.tables hbc).laidOver hb hc
  have hupper := (Over.tables hab).laidOver ha hb
  have habove := (Over.tables hx).laidOver ha (keyed_of_merge hb hc hbc)
  have hbelow := (Over.tables hy).laidOver (keyed_of_merge ha hb hab) hc
  exact Value.table.inj ((hlower.assoc habove hupper).unique hbelow)

/-- Three layers can be put together from above or from below. -/
theorem merge_merge_iff (ha : (Value.table a).Keyed) (hb : (Value.table b).Keyed)
    (hc : (Value.table c).Keyed) :
    (merge b c >>= merge a) = .ok x ↔ (merge a b >>= fun ab => merge ab c) = .ok x := by
  have hsame : (∃ x, (merge b c >>= merge a) = .ok x)
      ↔ ∃ x, (merge a b >>= fun ab => merge ab c) = .ok x := by
    rw [exists_merge_above_iff hb hc, exists_merge_below_iff hb hc]
    exact forall_congr' fun path => fits_assoc
  constructor
  · intro hx
    obtain ⟨y, hy⟩ := hsame.mp ⟨x, hx⟩
    rw [eq_of_merge_merge ha hb hc hx hy]
    exact hy
  · intro hy
    obtain ⟨x', hx⟩ := hsame.mpr ⟨x, hy⟩
    rw [← eq_of_merge_merge ha hb hc hx hy]
    exact hx

theorem merge_again (ha : (Value.table a).Keyed) (hb : (Value.table b).Keyed)
    (h : merge a b = .ok ab) : merge a ab = .ok ab := by
  have hab := keyed_of_merge ha hb h
  obtain ⟨x, hx⟩ := (exists_merge_iff a hab).mpr fun path => by
    rw [kindAt_merge h]
    exact fits_or_self ((exists_merge_iff a hb).mp ⟨ab, h⟩ path)
  have hlaid := ((Over.tables h).laidOver ha hb).again
  have hsame := hlaid.unique ((Over.tables hx).laidOver ha hab)
  rw [hx, Value.table.inj hsame]

/-- A layer with nothing in it changes nothing, whatever it is laid over. -/
theorem merge_nil_left (a : Entries) : merge [] a = .ok a := by
  have hentries : mergeEntries [] a = .ok a := by
    induction a with
    | nil => rfl
    | cons e rest ih =>
      obtain ⟨key, v⟩ := e
      rw [mergeEntries, ih]
      simp [Value.lookup]
  rw [merge, hentries]
  simp [ownEntries]

theorem merge_nil_right (a : Entries) : merge a [] = .ok a := by
  simp [merge, mergeEntries, ownEntries, Value.lookup]

end Layers

/-- **Layers compose.**  Of three layers the upper two can be merged first or the lower two: one way
goes through exactly if the other does, and both give the same entries in the same order.  A layer
laid over its own outcome changes nothing, and neither does an empty layer above or below. -/
theorem layers_compose {a b c : Entries} (ha : (Value.table a).Keyed) (hb : (Value.table b).Keyed)
    (hc : (Value.table c).Keyed) :
    (∀ x, (do merge a (← merge b c)) = .ok x ↔ (do merge (← merge a b) c) = .ok x)
      ∧ (∀ ab, merge a b = .ok ab → merge a ab = .ok ab)
      ∧ merge [] a = .ok a ∧ merge a [] = .ok a := by
  refine ⟨fun x => merge_merge_iff ha hb hc, ?_, merge_nil_left a, merge_nil_right a⟩
  intro ab hab
  exact merge_again ha hb hab

/-! A third layer, which shadows a leaf of the second and adds to another table of the defaults. -/

def localLayer : Entries :=
  [("title", .text "local"), ("logging", .table [("console_level", .text "DEBUG")])]

theorem localLayer_keyed : (Value.table localLayer).Keyed := by
  refine .table (by decide) ?_
  simp only [localLayer, List.forall_mem_cons]
  exact ⟨.leaf rfl, .flat (by decide) (by decide), by simp⟩

theorem layers_compose_defaults :
    ∃ both all, merge localLayer limitedLayer = .ok both ∧ merge both defaults = .ok all
      ∧ (do merge localLayer (← merge limitedLayer defaults)) = .ok all
      ∧ merge both all = .ok all
      ∧ (Value.table all).keys = ["bindgen", "mapping", "logging", "title"]
      ∧ (Value.table all).at? ["logging", "console_level"] = some (.text "DEBUG")
      ∧ (Value.table all).at? ["title"] = some (.text "local") := by
  have hboth := keyed_of_merge localLayer_keyed limitedLayer_keyed rfl
  refine ⟨_, _, rfl, rfl, ?_, ?_, rfl, rfl, rfl⟩
  · exact ((layers_compose localLayer_keyed limitedLayer_keyed defaults_keyed).1 _).mpr rfl
  · exact (layers_compose hboth defaults_keyed defaults_keyed).2.1 _ rfl

/-- Each way finds a clash of its own. -/
example :
    let a : Entries := [("color", .bool true), ("dir", .text "")]
    let b : Entries := [("color", .table []), ("dir", .text "logs")]
    let c : Entries := [("dir", .table []), ("color", .table [])]
    (do merge a (← merge b c)) = .error ⟨"dir", "str", "dict"⟩
      ∧ (do merge (← merge a b) c) = .error ⟨"color", "bool", "dict"⟩ := ⟨rfl, rfl⟩

end Interop.Config
