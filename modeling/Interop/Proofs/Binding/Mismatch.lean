import Interop.Proofs.Binding.Records
import Interop.Proofs.Decl.Locations

/-!
# Records that do not fit

Where the fields of a record follow one another, their sizes and paddings have to add up to the size
of the record.  Each record of a tree is checked before those nested in it, and nothing is lowered
after the first that does not fit: that one is reported, and in the failures of a header it stands
under the name of the whole tree (`mismatches_refused`).

Everything else that ends the lowering of a record is a fault, and for each fault there is a number
or a name in the tree that causes it (`Excepted`).  Not all of them are numbers with too many digits:
a sum with a double in it fails on integers that no double reaches.
-/

set_option autoImplicit false

namespace Interop.Binding

/-! ## The check as a relation -/

/-- The fields of a record follow one another, and cover a number of bytes that is not its size. -/
structure Mismatched (r : Decl.Record) (covered : Number) : Prop where
  nonempty : r.fields ≠ []
  follow : (r.fields.map (·.offset)).IsChain fun a b => b.lessOrEqual a = false
  covers : coveredBytes r.fields = .ok covered
  differs : covered.equal r.type.sizeOf = false

/-- The check has nothing against the record. -/
def Fits (r : Decl.Record) : Prop := ∀ covered, ¬ Mismatched r covered

/-- The refusal of a record whose fields cover this number of bytes. -/
def mismatch (r : Decl.Record) (covered : Number) : Refusal :=
  ⟨.layoutMismatch covered r.type.sizeOf, r.name, r.location⟩

/-- The refusal is that of the first of the records that does not fit. -/
def FirstMismatch (rs : List Decl.Record) (refusal : Refusal) : Prop :=
  ∃ before r after covered, rs = before ++ r :: after ∧ (∀ b ∈ before, Fits b)
    ∧ Mismatched r covered ∧ refusal = mismatch r covered

theorem FirstMismatch.append_right {rs : List Decl.Record} {refusal : Refusal}
    (h : FirstMismatch rs refusal) (rs' : List Decl.Record) : FirstMismatch (rs ++ rs') refusal := by
  obtain ⟨before, r, after, covered, rfl, hbefore, hr⟩ := h
  exact ⟨before, r, after ++ rs', covered, by simp, hbefore, hr⟩

theorem FirstMismatch.append_left {rs rs' : List Decl.Record} {refusal : Refusal}
    (h : FirstMismatch rs' refusal) (hrs : ∀ r ∈ rs, Fits r) : FirstMismatch (rs ++ rs') refusal := by
  obtain ⟨before, r, after, covered, rfl, hbefore, hr⟩ := h
  refine ⟨rs ++ before, r, after, covered, by simp, ?_, hr⟩
  exact List.forall_mem_append.mpr ⟨hrs, hbefore⟩

theorem strictlyIncreasing_eq_true (ns : List Number) :
    strictlyIncreasing ns = true ↔ ns.IsChain fun a b => b.lessOrEqual a = false := by
  induction ns using strictlyIncreasing.induct with
  | case1 a b rest ih => simp [strictlyIncreasing, ih]
  | case2 ns hshort =>
    match ns with
    | [] => simp [strictlyIncreasing]
    | [a] => simp [strictlyIncreasing]
    | a :: b :: rest => exact absurd rfl (hshort a b rest)

/-! ## The causes of faults -/

/-- The locations of a record and of its fields, without those of nested records. -/
def ownLocations (r : Decl.Record) : List Decl.Location :=
  r.location.toList ++ r.fields.flatMap (·.location.toList)

/-- The faults that lowering records can end in, each with its cause. -/
inductive Excepted (o : Options) (rs : List Decl.Record) : Fault → Prop
  /-- The line of a location has too many digits. -/
  | line {r : Decl.Record} {l : Decl.Location} (hr : r ∈ rs) (hl : l ∈ ownLocations r)
      (h : ¬ l.Writable) : Excepted o rs (.number .tooManyDigitsToWrite)
  /-- The record does not fit, and one of the two numbers of bytes has too many digits. -/
  | bytes {r : Decl.Record} {covered : Number} (hchecked : o.validateLayout = true) (hr : r ∈ rs)
      (h : Mismatched r covered) (hbytes : ∀ t, (mismatch r covered).reasonText ≠ .ok t) :
      Excepted o rs (.number .tooManyDigitsToWrite)
  /-- The sizes and paddings of the fields cannot be added up. -/
  | sum {r : Decl.Record} (hchecked : o.validateLayout = true) (hr : r ∈ rs)
      (h : Number.Unsummable (extents r.fields)) : Excepted o rs (.number .tooLargeForDouble)
  /-- A field is an array of a boolean type, and the name that stands in for it is no text. -/
  | boolean {r : Decl.Record} {f : Decl.Field} (hr : r ∈ rs) (hf : f ∈ r.fields)
      (harray : f.type.arraySize.isSome = true) (hboolean : IsSystemBoolean f.type)
      (hname : ∀ s, o.booleanTypeName ≠ .text s) :
      Excepted o rs (.lacks o.booleanTypeName.kindName "strip")

variable {o : Options}

theorem Excepted.mono {rs rs' : List Decl.Record} (hrs : rs ⊆ rs') {fault : Fault}
    (h : Excepted o rs fault) : Excepted o rs' fault := by
  cases h with
  | line hr hl h => exact .line (hrs hr) hl h
  | bytes hchecked hr h hbytes => exact .bytes hchecked (hrs hr) h hbytes
  | sum hchecked hr h => exact .sum hchecked (hrs hr) h
  | boolean hr hf harray hboolean hname => exact .boolean (hrs hr) hf harray hboolean hname

/-! ## Steps

Lowering goes through the records of a tree in the order of `withNested`.  What carries the
induction is that it has come to the end of a list of them only if all of them fit (`Passed`), and
that otherwise the first that does not fit is reported or there was a fault (`Stopped`). -/

variable (o) in
/-- All of the records fit, if layouts are checked. -/
def Passed (rs : List Decl.Record) : Prop := o.validateLayout = true → ∀ r ∈ rs, Fits r

variable (o) in
/-- Lowering the records ended with this error. -/
def Stopped (rs : List Decl.Record) : LoweringError → Prop
  | .refused refusal => o.validateLayout = true ∧ FirstMismatch rs refusal
  | .fault fault => Excepted o rs fault

theorem Passed.append {rs rs' : List Decl.Record} (h : Passed o rs) (h' : Passed o rs') :
    Passed o (rs ++ rs') :=
  fun hchecked => List.forall_mem_append.mpr ⟨h hchecked, h' hchecked⟩

theorem Stopped.append_right {rs : List Decl.Record} (rs' : List Decl.Record) :
    ∀ e, Stopped o rs e → Stopped o (rs ++ rs') e
  | .refused _, ⟨hchecked, h⟩ => ⟨hchecked, h.append_right rs'⟩
  | .fault _, h => Excepted.mono (List.subset_append_left rs rs') h

theorem Stopped.append_left {rs rs' : List Decl.Record} (hrs : Passed o rs) :
    ∀ e, Stopped o rs' e → Stopped o (rs ++ rs') e
  | .refused _, ⟨hchecked, h⟩ => ⟨hchecked, h.append_left (hrs hchecked)⟩
  | .fault _, h => Excepted.mono (List.subset_append_right rs rs') h

theorem reasonText_fails (r : Decl.Record) (covered : Number) :
    Ends (mismatch r covered).reasonText (fun _ => True) (· = .tooManyDigitsToWrite) := by
  have htext (n : Number) : Ends n.text (fun _ => True) (· = .tooManyDigitsToWrite) :=
    (Number.text_ends n).giving fun _ _ => trivial
  exact (htext covered).bind fun _ _ => (htext r.type.sizeOf).bind fun _ _ => Ends.ok trivial

theorem checkLayout_stops (hchecked : o.validateLayout = true) (r : Decl.Record) :
    Ends (checkLayout r) (fun _ => Fits r) (Stopped o [r]) := by
  have hr : r ∈ [r] := List.mem_singleton_self r
  unfold checkLayout
  split
  · next hskipped =>
    refine Ends.ok fun covered h => ?_
    rw [Bool.or_eq_true, List.isEmpty_iff, Bool.not_eq_true', ← Bool.not_eq_true,
      strictlyIncreasing_eq_true] at hskipped
    rcases hskipped with hempty | hunordered
    · exact h.nonempty hempty
    · exact hunordered h.follow
  · next hfields =>
    rw [Bool.or_eq_true, List.isEmpty_iff, Bool.not_eq_true', not_or, Bool.not_eq_false,
      strictlyIncreasing_eq_true] at hfields
    cases hcovered : coveredBytes r.fields with
    | error e =>
      obtain ⟨rfl, hsum⟩ := (coveredBytes_ends r.fields).failure hcovered
      exact Ends.error (.sum hchecked hr hsum)
    | ok covered =>
      refine Ends.of_ok rfl ?_
      dsimp only
      split
      · next hdiffers =>
        rw [Bool.not_eq_true'] at hdiffers
        have hmismatched : Mismatched r covered := ⟨hfields.1, hfields.2, hcovered, hdiffers⟩
        -- The message is written before the refusal, and may be at fault itself.
        show Ends (numeric (mismatch r covered).reasonText >>= _) _ _
        cases htext : (mismatch r covered).reasonText with
        | ok t =>
          exact Ends.error ⟨hchecked, [], r, [], covered, rfl, by simp, hmismatched, rfl⟩
        | error e =>
          obtain rfl := (reasonText_fails r covered).failure htext
          exact Ends.error (.bytes hchecked hr hmismatched (by simp [htext]))
      · next hequal =>
        refine Ends.ok fun covered' h => ?_
        obtain rfl := Except.ok.inj (hcovered.symm.trans h.covers)
        exact hequal (by rw [h.differs, Bool.not_false])

theorem checkIfAsked_stops (r : Decl.Record) :
    Ends (checkIfAsked o r) (fun _ => Passed o [r]) (Stopped o [r]) := by
  unfold checkIfAsked
  split
  · next hchecked =>
    refine (checkLayout_stops hchecked r).giving fun _ hfits _ => ?_
    exact List.forall_mem_singleton.mpr hfits
  · next hunchecked => exact Ends.ok fun hchecked => absurd hchecked hunchecked

theorem comment_stops {r : Decl.Record} {location : Option Decl.Location}
    (h : ∀ l ∈ location, l ∈ ownLocations r) :
    Ends (numeric (Decl.locationComment location)) (fun _ => True) (Stopped o [r]) := by
  cases location with
  | none => exact Ends.ok trivial
  | some l =>
    have hl : l ∈ ownLocations r := h l rfl
    rw [Decl.locationComment, Decl.Location.comment]
    cases htext : l.line.text with
    | ok t => exact Ends.ok trivial
    | error e =>
      obtain rfl := (Number.text_ends l.line).failure htext
      refine Ends.error (.line (List.mem_singleton_self r) hl ?_)
      rintro ⟨t, ht⟩
      cases htext.symm.trans ht

/-- A name from the header is a text, so only what stands in for a boolean type can be none. -/
theorem arrayKeyword_stops {r : Decl.Record} {f : Decl.Field} (hf : f ∈ r.fields)
    (harray : f.type.arraySize.isSome = true) :
    Ends (faulty (elementKeyword o.elements (TypeUse.ofDecl o.booleanTypeName f.type).name))
      (fun _ => True) (Stopped o [r]) := by
  have hkept := ofDecl_kept o f.type
  have hkeyword := elementKeyword_ends o.elements (characters_ends "strip"
    (TypeUse.ofDecl o.booleanTypeName f.type).name)
  refine Ends.mapError (hkeyword.failing fun fault hfault => ?_)
  obtain ⟨rfl, hname⟩ := hfault
  have hboolean : IsSystemBoolean f.type := by
    by_contra hother
    exact hname f.type.name (hkept.name hother)
  rw [hkept.boolean hboolean] at hname ⊢
  exact .boolean (List.mem_singleton_self r) hf harray hboolean hname

theorem lowerField_stops {r : Decl.Record} {f : Decl.Field} (hf : f ∈ r.fields) :
    Ends (lowerField o f) (fun _ => True) (Stopped o [r]) := by
  have hcomment : Ends (numeric (Decl.locationComment f.location)) (fun _ => True)
      (Stopped o [r]) := by
    refine comment_stops fun l hl => List.mem_append_right _ ?_
    exact List.mem_flatMap.mpr ⟨f, hf, Option.mem_toList.mpr hl⟩
  unfold lowerField
  dsimp only
  split
  · next harray =>
    have hwrapped : Ends ((faulty (elementKeyword o.elements
        (TypeUse.ofDecl o.booleanTypeName f.type).name)).map (·.isNone)) (fun _ => True)
        (Stopped o [r]) :=
      (arrayKeyword_stops hf harray).bind fun _ _ => Ends.ok trivial
    exact hwrapped.bind fun _ _ => hcomment.bind fun _ _ => Ends.ok trivial
  · exact hcomment.bind fun _ _ => Ends.ok trivial

/-! ## Trees -/

/-- Lowering the trees one after the other, if lowering each of them goes through its records. -/
theorem lowerTrees_stops {rs : List Decl.Record} (h : ∀ r ∈ rs,
    Ends (lowerRecord o r) (fun _ => Passed o (withNested r)) (Stopped o (withNested r))) :
    Ends (rs.mapM (lowerRecord o)) (fun _ => Passed o (rs.flatMap withNested))
      (Stopped o (rs.flatMap withNested)) := by
  induction rs with
  | nil => exact Ends.ok fun _ _ hr => absurd hr (by simp)
  | cons r rs ih =>
    obtain ⟨hr, hrs⟩ := List.forall_mem_cons.mp h
    -- What stops the first tree stands in front; what stops a later one stands behind records that
    -- fit.
    rw [List.mapM_cons, List.flatMap_cons]
    refine (hr.failing (Stopped.append_right _)).bind fun _ hpassed => ?_
    refine ((ih hrs).failing (Stopped.append_left hpassed)).bind fun _ hrest => Ends.ok ?_
    exact hpassed.append hrest

theorem lowerRecord_stops (r : Decl.Record) :
    Ends (lowerRecord o r) (fun _ => Passed o (withNested r)) (Stopped o (withNested r)) := by
  induction r using Decl.Record.tree_induction with
  | node r ih =>
    -- The check of the record comes first, as the record stands before those nested in it.
    rw [lowerRecord_eq, withNested_eq, ← List.singleton_append]
    have hown {α : Type} {P : α → Prop} {x : Except LoweringError α}
        (hx : Ends x P (Stopped o [r])) :
        Ends x P (Stopped o ([r] ++ r.nested.flatMap withNested)) :=
      hx.failing (Stopped.append_right _)
    refine (hown (checkIfAsked_stops r)).bind fun _ hpassed => ?_
    refine (hown (comment_stops fun l hl => ?_)).bind fun _ _ => ?_
    · exact List.mem_append_left _ (Option.mem_toList.mpr hl)
    refine (hown (Ends.mapM fun f hf => lowerField_stops hf)).bind fun _ _ => ?_
    refine ((lowerTrees_stops ih).failing (Stopped.append_left hpassed)).bind fun _ hrest => ?_
    exact Ends.ok (hpassed.append hrest)

/-! ## Failures of a header -/

theorem outcome_eq_failed {β : Type} {k : Decl.Kind} {n : String} {l : Option Decl.Location}
    {x : Except LoweringError β} {f : Failure} : outcome k n l x = .ok (.error f) ↔
      ∃ refusal, x = .error (.refused refusal) ∧ f = ⟨k, n, l, refusal⟩ := by
  cases x with
  | ok b => simp [outcome]
  | error e => cases e <;> simp [outcome, eq_comm]

variable (o) in
/-- One of the records is refused, and reported under the name and with the location of the whole
tree, whichever record of the tree the refusal is about. -/
def IsRecordFailure (rs : List Decl.Record) (f : Failure) : Prop :=
  ∃ r ∈ rs, ∃ refusal, lowerRecord o r = .error (.refused refusal)
    ∧ f = ⟨.record, r.name, r.location, refusal⟩

theorem record_failures {h : Decl.Header} {l : Lowered} (hl : lower o h = .ok l) (f : Failure) :
    f ∈ l.failures ∧ f.kind = .record ↔ IsRecordFailure o h.records f := by
  have hrecord (r : Decl.Record) : ((Declaration.record r).outcome o).failure? = some f ↔
      ∃ refusal, lowerRecord o r = .error (.refused refusal)
        ∧ f = ⟨.record, r.name, r.location, refusal⟩ := by
    rw [Declaration.outcome, Outcome.failure?_map, Outcome.failure?_eq_some]
    exact outcome_eq_failed
  have hmem (r : Decl.Record) : Declaration.record r ∈ declarations h ↔ r ∈ h.records := by
    simp [declarations]
  obtain ⟨-, rfl⟩ := lower_eq_ok.mp hl
  constructor
  · rintro ⟨hf, hkind⟩
    obtain ⟨d, hd, hfailure⟩ := List.mem_filterMap.mp hf
    have hd' := Declaration.failsWith (Outcome.failure?_eq_some.mp hfailure)
    cases d with
    | record r => exact ⟨r, (hmem r).mp hd, (hrecord r).mp hfailure⟩
    | _ => cases hd'.kind.symm.trans hkind
  · rintro ⟨r, hr, hrefused⟩
    refine ⟨List.mem_filterMap.mpr ⟨.record r, (hmem r).mpr hr, (hrecord r).mpr hrefused⟩, ?_⟩
    obtain ⟨refusal, -, rfl⟩ := hrefused
    rfl

/-! ## Records of integers -/

/-- All numbers that the check of a record looks at are integers. -/
structure Integral (r : Decl.Record) : Prop where
  size : ¬ r.type.sizeOf.IsDouble
  extents : ∀ n ∈ extents r.fields, ¬ n.IsDouble
  offsets : ∀ f ∈ r.fields, ¬ f.offset.IsDouble

/-- The bytes of the fields with their paddings. -/
def totalBytes (fields : List Decl.Field) : Int :=
  (fields.map fun f => f.type.sizeOf.integer + f.padding.integer).sum

theorem coveredBytes_of_integers {fields : List Decl.Field}
    (h : ∀ n ∈ extents fields, ¬ n.IsDouble) : coveredBytes fields = .ok (.int (totalBytes fields)) := by
  have hfields : fields.mapM (fun f => f.type.sizeOf.add f.padding)
      = .ok ((fields.map fun f => f.type.sizeOf.integer + f.padding.integer).map .int) := by
    rw [mapM_eq_ok, List.map_map, List.forall₂_map_right_iff, List.forall₂_same]
    intro f hf
    have hpair : ∀ n ∈ [f.type.sizeOf, f.padding], ¬ n.IsDouble :=
      fun n hn => h n (List.mem_flatMap.mpr ⟨f, hf, hn⟩)
    have hsize := Number.eq_int_of_not_isDouble (hpair f.type.sizeOf (by simp))
    have hpadding := Number.eq_int_of_not_isDouble (hpair f.padding (by simp))
    rw [hsize, hpadding]
    rfl
  rw [coveredBytes, hfields]
  exact Number.sum_int _

theorem follow_iff_of_integers {fields : List Decl.Field} (h : ∀ f ∈ fields, ¬ f.offset.IsDouble) :
    ((fields.map (·.offset)).IsChain fun a b => b.lessOrEqual a = false) ↔
      (fields.map (·.offset.integer)).Pairwise (· < ·) := by
  have hoffsets : fields.map (·.offset) = (fields.map (·.offset.integer)).map .int := by
    rw [List.map_map]
    exact List.map_congr_left fun f hf => Number.eq_int_of_not_isDouble (h f hf)
  rw [hoffsets, List.isChain_map, ← List.isChain_iff_pairwise]
  simp only [Number.lessOrEqual_int]

/-- What a mismatch is among integers. -/
structure IntegerMismatch (r : Decl.Record) (covered : Number) : Prop where
  nonempty : r.fields ≠ []
  follow : (r.fields.map (·.offset.integer)).Pairwise (· < ·)
  covers : covered = .int (totalBytes r.fields)
  differs : totalBytes r.fields ≠ r.type.sizeOf.integer

theorem mismatched_iff_of_integral {r : Decl.Record} (h : Integral r) (covered : Number) :
    Mismatched r covered ↔ IntegerMismatch r covered := by
  have hcovered := coveredBytes_of_integers h.extents
  have hdiffers : (Number.int (totalBytes r.fields)).equal r.type.sizeOf = false ↔
      totalBytes r.fields ≠ r.type.sizeOf.integer := by
    rw [Number.eq_int_of_not_isDouble h.size, ← Bool.not_eq_true, Number.equal_int]
    rfl
  constructor
  · rintro ⟨hfields, hfollow, hcovers, hne⟩
    obtain rfl := Except.ok.inj (hcovers.symm.trans hcovered)
    exact ⟨hfields, (follow_iff_of_integers h.offsets).mp hfollow, rfl, hdiffers.mp hne⟩
  · rintro ⟨hfields, hfollow, rfl, hne⟩
    exact ⟨hfields, (follow_iff_of_integers h.offsets).mpr hfollow, hcovered, hdiffers.mpr hne⟩

/-! ## Refusals of records -/

/-- When the lowering of records fails, and with which error. -/
structure RefusesMismatches (o : Options) : Prop where
  /-- With layouts checked, and no fault in the way, a record is lowered unless one of its tree does
  not fit. -/
  raises {r : Decl.Record} (hchecked : o.validateLayout = true)
    (hfault : ∀ fault, lowerRecord o r ≠ .error (.fault fault)) :
    (∃ e, lowerRecord o r = .error e) ↔ ∃ r' ∈ withNested r, ∃ covered, Mismatched r' covered
  /-- The error is about the first record of the tree that does not fit. -/
  first {r : Decl.Record} {refusal : Refusal} (h : lowerRecord o r = .error (.refused refusal)) :
    FirstMismatch (withNested r) refusal
  /-- Without the check there are only faults. -/
  unchecked {r : Decl.Record} {e : LoweringError} (hunchecked : o.validateLayout = false)
    (h : lowerRecord o r = .error e) : ∃ fault, e = .fault fault
  faults {r : Decl.Record} {fault : Fault} (h : lowerRecord o r = .error (.fault fault)) :
    Excepted o (withNested r) fault
  /-- What is reported for a tree has the name and the location of its root. -/
  reported {h : Decl.Header} {l : Lowered} (hl : lower o h = .ok l) (f : Failure) :
    f ∈ l.failures ∧ f.kind = .record ↔ IsRecordFailure o h.records f
  /-- A record of integers fits if these add up, and this is no fault. -/
  integers {r : Decl.Record} (h : Integral r) : ¬ Number.Unsummable (extents r.fields)
    ∧ ∀ covered, Mismatched r covered ↔ IntegerMismatch r covered

/-- **The first record of a tree that does not fit is refused.**  With layouts checked, lowering a
record fails exactly if its tree has a record with fields that follow one another and do not add up
to its size, and it reports the first of these, in the order in which a record stands before those
nested in it.  What else can end it are the faults of `Excepted`. -/
theorem mismatches_refused (o : Options) : RefusesMismatches o where
  raises {r} hchecked hfault := by
    have hends := @lowerRecord_stops o r
    constructor
    · rintro ⟨_ | fault, he⟩
      · obtain ⟨-, before, r', after, covered, htree, -, hr', -⟩ := hends.failure he
        exact ⟨r', htree ▸ List.mem_append_right _ List.mem_cons_self, covered, hr'⟩
      · exact absurd he (hfault fault)
    · rintro ⟨r', hr', covered, hmismatched⟩
      cases hlower : lowerRecord o r with
      | error e => exact ⟨e, rfl⟩
      | ok s => exact absurd hmismatched (hends.result hlower hchecked r' hr' covered)
  first {r} _ h := (lowerRecord_stops r |>.failure h).2
  unchecked {r} e hunchecked h := by
    cases e with
    | fault fault => exact ⟨fault, rfl⟩
    | refused refusal =>
      have hchecked := ((lowerRecord_stops r).failure h).1
      cases hunchecked.symm.trans hchecked
  faults {r} _ h := (lowerRecord_stops r).failure h
  reported hl f := record_failures hl f
  integers {r} h := by
    refine ⟨fun hsum => ?_, mismatched_iff_of_integral h⟩
    obtain ⟨n, hn, hdouble⟩ := hsum.double
    exact h.extents n hn hdouble

/-- A record that fits, with two nested ones that do not.  The first of them has a nested record of
its own that does not fit either. -/
def crowdedRecord : Decl.Record :=
  singleRecord "Frame" (.int 4) (.int 4) (.int 0)
    [singleRecord "Pane" (.int 9) (.int 4) (.int 2)
      [singleRecord "Hinge" (.int 7) (.int 4) (.int 0) []],
    singleRecord "Sill" (.int 8) (.int 4) (.int 0) []]

/-- The outer one of the nested records is reported, in the name of the record. -/
theorem mismatches_refused_crowded :
    lowerRecord checkedOptions crowdedRecord
        = .error (.refused ⟨.layoutMismatch (.int 6) (.int 9), "Pane", none⟩)
      ∧ FirstMismatch (withNested crowdedRecord) ⟨.layoutMismatch (.int 6) (.int 9), "Pane", none⟩
      ∧ ∃ r ∈ withNested crowdedRecord, ∃ covered, Mismatched r covered := by
  have hrefused : lowerRecord checkedOptions crowdedRecord
      = .error (.refused ⟨.layoutMismatch (.int 6) (.int 9), "Pane", none⟩) := by
    rw [← map_eq_error (f := fun _ => ())]
    decide +kernel
  have hrefuses := mismatches_refused checkedOptions
  have hfault : ∀ fault, lowerRecord checkedOptions crowdedRecord ≠ .error (.fault fault) := by
    rw [hrefused]
    exact fun fault h => by cases h
  exact ⟨hrefused, hrefuses.first hrefused, (hrefuses.raises rfl hfault).mp ⟨_, hrefused⟩⟩

/-! ## Faults that are no matter of digits -/

/-- A nested record of which the size and that of its field are an integer that no double reaches,
while the padding is a double. -/
def clashingRecord : Decl.Record where
  name := "Outer"
  location := none
  type := sizedType "Outer" (.int 4)
  fields := []
  nested := [singleRecord "Inner" (.int (twoTo 1024)) (.int (twoTo 1024))
    (.double (Binary64.zero false)) []]

/-- A record with an array of a boolean type. -/
def booleansRecord : Decl.Record where
  name := "Switches"
  location := none
  type := sizedType "Switches" (.int 8)
  fields := [⟨"all", none,
    { sizedType "bool" (.int 8) with arraySize := some (.int 8), isSystem := true }, .int 0, .int 0⟩]
  nested := []

/-- Lowering fails with layouts checked though all records fit, and without the check. -/
theorem faults_beyond_digits :
    ((∀ r ∈ withNested clashingRecord, Fits r)
      ∧ ∃ fault, lowerRecord checkedOptions clashingRecord = .error (.fault fault)
        ∧ ¬ fault.IsDigitLimit)
    ∧ ∃ fault, lowerRecord { Options.default with booleanTypeName := .int 3 } booleansRecord
        = .error (.fault fault) ∧ ¬ fault.IsDigitLimit := by
  refine ⟨⟨?_, .number .tooLargeForDouble, ?_, by rintro ⟨⟩⟩,
    .lacks "int" "strip", ?_, by rintro ⟨⟩⟩
  · have hfields : ∀ r ∈ withNested clashingRecord,
        r.fields.isEmpty || (coveredBytes r.fields).toOption.isNone := by
      decide +kernel
    intro r hr covered h
    have hempty := h.nonempty
    simpa [h.covers, Except.toOption, hempty] using hfields r hr
  · rw [← map_eq_error (f := fun _ => ())]
    decide +kernel
  · rw [← map_eq_error (f := fun _ => ())]
    decide +kernel

end Interop.Binding
