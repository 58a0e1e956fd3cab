import Interop.Proofs.Binding.Mismatch
import Interop.Proofs.Decl.Loading
import Interop.Proofs.Number.Value

/-!
# Gaps in records

The check of a layout compares one sum with the size of the record, and looks at offsets only for
their order.  For fields in order within the record this is enough: the size is more than the sum by
the gaps before, between and behind the fields (`sum_gaps`), no gap is negative, and so none is left
out of account if the two numbers agree (`gaps_reported`).

This is about the exact sum.  Sums of integers are exact, and so are those of natural numbers up to
`2 ^ 53` in either form.  Beyond that a double is rounded, and a gap can vanish in the rounding
(`rounding_hides_gap`).
-/

set_option autoImplicit false

namespace Interop

theorem Number.natural_iff {n : Number} (h : n.IsFinite) : n.Natural ↔ ∃ k, n.IsNat k := by
  refine exists_congr fun k => ?_
  rw [Number.equal_iff_value h (Number.isFinite_int k)]
  simp [Number.IsNat, h]

namespace Binding

/-! ## Fields in order -/

/-- The bytes that a field takes up, with the padding behind it. -/
def bytes (f : Decl.Field) : ℚ := f.type.sizeOf.value + f.padding.value

/-- Where a field ends, with the padding behind it. -/
def stop (f : Decl.Field) : ℚ := f.offset.value + bytes f

/-- The numbers that the check of a record looks at. -/
def checkedNumbers (r : Decl.Record) : List Number :=
  r.type.sizeOf :: (r.fields.map (·.offset) ++ extents r.fields)

/-- The fields of a record lie within it, one behind the other. -/
structure InOrder (r : Decl.Record) : Prop where
  finite : ∀ n ∈ checkedNumbers r, n.IsFinite
  nonempty : r.fields ≠ []
  increasing : r.fields.IsChain fun f g => f.offset.value < g.offset.value
  first : ∀ f ∈ r.fields.head?, 0 ≤ f.offset.value
  apart : r.fields.IsChain fun f g => stop f ≤ g.offset.value
  last : ∀ f ∈ r.fields.getLast?, stop f ≤ r.type.sizeOf.value

/-- Each field starts behind the bytes of those before it, and the last one ends with the record. -/
structure Tiled (r : Decl.Record) : Prop where
  offsets : ∀ i f, r.fields[i]? = some f → f.offset.value = ((r.fields.take i).map bytes).sum
  last : ∀ f ∈ r.fields.getLast?, stop f = r.type.sizeOf.value

/-- Some bytes of the record belong to no field and to no padding. -/
inductive Gap (r : Decl.Record) : Prop
  | first {f : Decl.Field} (hf : f ∈ r.fields.head?) (h : 0 < f.offset.value)
  | between {f g : Decl.Field} (hfg : [f, g] <:+: r.fields) (h : stop f < g.offset.value)
  | last {f : Decl.Field} (hf : f ∈ r.fields.getLast?) (h : stop f < r.type.sizeOf.value)

/-! ## The gaps of a record -/

/-- The numbers of bytes before each of the fields and behind the last, in an area from `a` to
`b`. -/
def gaps (a b : ℚ) : List Decl.Field → List ℚ
  | [] => [b - a]
  | f :: rest => (f.offset.value - a) :: gaps (stop f) b rest

/-- What the fields leave of an area are its gaps. -/
theorem sum_gaps (a b : ℚ) (fields : List Decl.Field) :
    (gaps a b fields).sum = b - a - (fields.map bytes).sum := by
  induction fields generalizing a with
  | nil => simp [gaps]
  | cons f rest ih =>
    rw [gaps, List.sum_cons, ih, List.map_cons, List.sum_cons, stop]
    ring

/-- All gaps are of some sort: the first, those between neighbours, and the last. -/
theorem forall_gaps {P : ℚ → Prop} {a b : ℚ} {fields : List Decl.Field} (hne : fields ≠ []) :
    (∀ d ∈ gaps a b fields, P d) ↔
      (∀ f ∈ fields.head?, P (f.offset.value - a))
        ∧ fields.IsChain (fun f g => P (g.offset.value - stop f))
        ∧ ∀ f ∈ fields.getLast?, P (b - stop f) := by
  induction fields generalizing a with
  | nil => exact absurd rfl hne
  | cons f rest ih =>
    cases rest with
    | nil => simp [gaps]
    | cons g rest =>
      -- The gap before `g` is the first one of the rest.
      have hrest := ih (a := stop f) (List.cons_ne_nil g rest)
      rw [gaps, List.forall_mem_cons, hrest]
      simp [and_assoc]

/-- Offsets are the sums of what lies before them if each field starts where the last one ends. -/
theorem offsets_iff {a : ℚ} {fields : List Decl.Field} :
    (∀ i f, fields[i]? = some f → f.offset.value = a + ((fields.take i).map bytes).sum) ↔
      (∀ f ∈ fields.head?, f.offset.value = a)
        ∧ fields.IsChain fun f g => g.offset.value = stop f := by
  induction fields generalizing a with
  | nil => simp
  | cons f rest ih =>
    have hrest : (∀ i g, rest[i]? = some g →
        g.offset.value = a + (bytes f + ((rest.take i).map bytes).sum)) ↔
        (∀ g ∈ rest.head?, g.offset.value = a + bytes f)
          ∧ rest.IsChain fun f g => g.offset.value = stop f := by
      rw [← ih]
      simp only [add_assoc]
    rw [List.isChain_cons]
    constructor
    · intro h
      have hf : f.offset.value = a := by simpa using h 0 f rfl
      obtain ⟨hhead, hchain⟩ := hrest.mp fun i g hg => by simpa using h (i + 1) g hg
      refine ⟨by simpa using hf, ⟨fun g hg => ?_, hchain⟩⟩
      rw [hhead g hg, stop, hf]
    · rintro ⟨hhead, hnext, hchain⟩ i g hg
      have hf : f.offset.value = a := hhead f rfl
      cases i with
      | zero =>
        obtain rfl := Option.some.inj hg
        simpa using hf
      | succ i =>
        have hstart : ∀ g ∈ rest.head?, g.offset.value = a + bytes f := fun g hg => by
          rw [hnext g hg, stop, hf]
        simpa using hrest.mpr ⟨hstart, hchain⟩ i g hg

section Gaps

variable {r : Decl.Record}

theorem tiled_iff (hne : r.fields ≠ []) :
    Tiled r ↔ ∀ d ∈ gaps 0 r.type.sizeOf.value r.fields, d = 0 := by
  have hoffsets := @offsets_iff 0 r.fields
  simp only [zero_add] at hoffsets
  simp only [forall_gaps hne, sub_eq_zero]
  constructor
  · intro h
    obtain ⟨hfirst, hchain⟩ := hoffsets.mp h.offsets
    exact ⟨hfirst, hchain, fun f hf => (h.last f hf).symm⟩
  · rintro ⟨hfirst, hchain, hlast⟩
    exact ⟨hoffsets.mpr ⟨hfirst, hchain⟩, fun f hf => (hlast f hf).symm⟩

theorem not_gap_iff (hne : r.fields ≠ []) :
    ¬ Gap r ↔ ∀ d ∈ gaps 0 r.type.sizeOf.value r.fields, d ≤ 0 := by
  simp only [forall_gaps hne, sub_nonpos]
  constructor
  · intro h
    refine ⟨fun f hf => not_lt.mp fun hpos => h (.first hf hpos), ?_,
      fun f hf => not_lt.mp fun hpos => h (.last hf hpos)⟩
    rw [List.isChain_iff_forall_rel_of_append_cons_cons]
    intro f g before after hfields
    refine not_lt.mp fun hpos => h (.between ⟨before, after, ?_⟩ hpos)
    simp [hfields]
  · rintro ⟨hfirst, hchain, hlast⟩ hgap
    cases hgap with
    | first hf hpos => exact absurd hpos (not_lt.mpr (hfirst _ hf))
    | last hf hpos => exact absurd hpos (not_lt.mpr (hlast _ hf))
    | between hfg hpos =>
      have hpair := hchain.infix hfg
      exact absurd hpos (not_lt.mpr (List.isChain_cons_cons.mp hpair).1)

theorem InOrder.gaps_nonneg (h : InOrder r) :
    ∀ d ∈ gaps 0 r.type.sizeOf.value r.fields, 0 ≤ d := by
  simp only [forall_gaps h.nonempty, sub_nonneg]
  exact ⟨h.first, h.apart, h.last⟩

theorem InOrder.gap_iff (h : InOrder r) : Gap r ↔ ¬ Tiled r := by
  rw [iff_not_comm, tiled_iff h.nonempty, not_gap_iff h.nonempty]
  constructor
  · exact fun hzero d hd => (hzero d hd).le
  · exact fun hle d hd => le_antisymm (hle d hd) (h.gaps_nonneg d hd)

/-- The bytes of the fields never exceed the size of the record. -/
theorem InOrder.sum_le (h : InOrder r) : (r.fields.map bytes).sum ≤ r.type.sizeOf.value := by
  have hsum := List.sum_nonneg h.gaps_nonneg
  rw [sum_gaps] at hsum
  linarith

/-- One equation is enough: gaps that are not negative and come to nothing are all empty. -/
theorem InOrder.tiled_iff_sum (h : InOrder r) :
    Tiled r ↔ (r.fields.map bytes).sum = r.type.sizeOf.value := by
  have hsum := sum_gaps 0 r.type.sizeOf.value r.fields
  rw [tiled_iff h.nonempty]
  constructor
  · intro hzero
    rw [List.sum_eq_zero hzero] at hsum
    linarith
  · intro hcovered d hd
    refine List.all_zero_of_le_zero_le_of_sum_eq_zero h.gaps_nonneg ?_ hd
    rw [hsum, hcovered]
    ring

end Gaps

/-! ## Exact sums -/

/-- The sizes and paddings of the fields are added up without rounding. -/
def AddedExactly (r : Decl.Record) : Prop :=
  ∃ covered, coveredBytes r.fields = .ok covered ∧ covered.IsFinite
    ∧ covered.value = (r.fields.map bytes).sum

theorem addedExactly_of_integers {r : Decl.Record} (h : ∀ n ∈ extents r.fields, ¬ n.IsDouble) :
    AddedExactly r := by
  refine ⟨_, coveredBytes_of_integers h, trivial, ?_⟩
  rw [Number.value, totalBytes, Int.cast_list_sum, List.map_map]
  refine congrArg List.sum (List.map_congr_left fun f hf => ?_)
  have hvalue (n : Number) (hn : n ∈ [f.type.sizeOf, f.padding]) : n.value = n.integer := by
    rw [Number.eq_int_of_not_isDouble (h n (List.mem_flatMap.mpr ⟨f, hf, hn⟩))]
    rfl
  rw [bytes, hvalue f.type.sizeOf (by simp), hvalue f.padding (by simp)]
  simp

/-- The size and the padding of a field are natural numbers, in either form. -/
def HasNaturals (f : Decl.Field) : Prop :=
  (∃ j, f.type.sizeOf.IsNat j) ∧ ∃ k, f.padding.IsNat k

theorem HasNaturals.bytes_nonneg {f : Decl.Field} (h : HasNaturals f) : 0 ≤ bytes f := by
  obtain ⟨⟨_, hj⟩, _, hk⟩ := h
  exact add_nonneg hj.nonneg hk.nonneg

theorem HasNaturals.add {f : Decl.Field} (h : HasNaturals f) (hle : bytes f ≤ twoTo 53) :
    ∃ n, f.type.sizeOf.add f.padding = .ok n ∧ (∃ k, n.IsNat k) ∧ n.value = bytes f := by
  obtain ⟨⟨j, hj⟩, k, hk⟩ := h
  have hbytes : bytes f = (j + k : Nat) := by rw [bytes, hj.2, hk.2, Nat.cast_add]
  rw [hbytes] at hle
  obtain ⟨n, hn, hnat⟩ := hj.add hk (Nat.cast_le.mp hle)
  exact ⟨n, hn, ⟨_, hnat⟩, by rw [hnat.2, hbytes]⟩

/-- Fields of natural numbers are added up exactly, as far as doubles count. -/
theorem coveredBytes_of_naturals {fields : List Decl.Field} (h : ∀ f ∈ fields, HasNaturals f)
    (hsum : (fields.map bytes).sum ≤ twoTo 53) :
    ∃ covered, coveredBytes fields = .ok covered ∧ covered.IsFinite
      ∧ covered.value = (fields.map bytes).sum := by
  have hnonneg : ∀ q ∈ fields.map bytes, 0 ≤ q := by
    intro q hq
    obtain ⟨f, hf, rfl⟩ := List.mem_map.mp hq
    exact (h f hf).bytes_nonneg
  -- No field takes up more than all of them, so each of the small sums is exact.
  have hfield (f : Decl.Field) (hf : f ∈ fields) :=
    (h f hf).add ((List.single_le_sum hnonneg _ (List.mem_map_of_mem hf)).trans hsum)
  obtain ⟨ns, hns⟩ := exists_mapM_eq_ok.mpr fun f hf => (hfield f hf).imp fun _ hn => hn.1
  have hends : Ends (fields.mapM fun f => f.type.sizeOf.add f.padding)
      (List.Forall₂ (fun f n => (∃ k, n.IsNat k) ∧ n.value = bytes f) fields) fun _ => True := by
    refine Ends.mapM fun f hf => ?_
    obtain ⟨n, hn, hresult⟩ := hfield f hf
    rw [hn]
    exact Ends.ok hresult
  have hresults := hends.result hns
  have hvalues : ns.map Number.value = fields.map bytes :=
    map_eq_map_of_forall₂ (hresults.imp fun _ _ hn => hn.2)
  rw [coveredBytes, hns, ← hvalues]
  exact Number.sum_natural (forall_of_forall₂ hresults fun _ _ hn => hn.1) (hvalues ▸ hsum)

theorem addedExactly_of_naturals {r : Decl.Record} (h : InOrder r)
    (hnatural : ∀ n ∈ extents r.fields, n.Natural) (hsize : r.type.sizeOf.value ≤ twoTo 53) :
    AddedExactly r := by
  have hnat (f : Decl.Field) (hf : f ∈ r.fields) (n : Number)
      (hn : n ∈ [f.type.sizeOf, f.padding]) : ∃ k, n.IsNat k := by
    have hmem : n ∈ extents r.fields := List.mem_flatMap.mpr ⟨f, hf, hn⟩
    refine (Number.natural_iff ?_).mp (hnatural n hmem)
    exact h.finite n (List.mem_cons_of_mem _ (List.mem_append_right _ hmem))
  refine coveredBytes_of_naturals (fun f hf => ⟨?_, ?_⟩) (h.sum_le.trans hsize)
  · exact hnat f hf f.type.sizeOf (by simp)
  · exact hnat f hf f.padding (by simp)

/-! ## The check -/

/-- The check refuses the record, unless one of the two numbers of bytes has no text. -/
def Reported (r : Decl.Record) (covered : Number) : Prop :=
  checkLayout r = .error (.refused (mismatch r covered))
    ∨ checkLayout r = .error (.fault (.number .tooManyDigitsToWrite))
      ∧ ∀ t, (mismatch r covered).reasonText ≠ .ok t

theorem checkLayout_covered {r : Decl.Record} {covered : Number} (hne : r.fields ≠ [])
    (hfollow : (r.fields.map (·.offset)).IsChain fun a b => b.lessOrEqual a = false)
    (hcovered : coveredBytes r.fields = .ok covered) :
    (covered.equal r.type.sizeOf = true → checkLayout r = .ok ())
      ∧ (covered.equal r.type.sizeOf = false → Reported r covered) := by
  have hchecked : (r.fields.isEmpty || !strictlyIncreasing (r.fields.map (·.offset))) = false := by
    simp [(strictlyIncreasing_eq_true _).mpr hfollow, hne]
  have hsum : numeric (coveredBytes r.fields) = .ok covered := by rw [hcovered]; rfl
  unfold Reported checkLayout
  rw [if_neg (by simp [hchecked]), hsum, ok_bind]
  constructor
  · intro hequal
    rw [if_neg (by simp [hequal])]
    rfl
  · intro hdiffers
    rw [if_pos (by simp [hdiffers])]
    -- The message is written before the refusal, and may be at fault itself.
    show numeric (mismatch r covered).reasonText >>= _ = _
      ∨ numeric (mismatch r covered).reasonText >>= _ = _ ∧ _
    cases htext : (mismatch r covered).reasonText with
    | ok t => exact .inl rfl
    | error e =>
      obtain rfl := (reasonText_fails r covered).failure htext
      exact .inr ⟨rfl, fun t ht => by cases ht⟩

theorem InOrder.follow {r : Decl.Record} (h : InOrder r) :
    (r.fields.map (·.offset)).IsChain fun a b => b.lessOrEqual a = false := by
  have hfinite (f : Decl.Field) (hf : f ∈ r.fields) : f.offset.IsFinite :=
    h.finite _ (List.mem_cons_of_mem _ (List.mem_append_left _ (List.mem_map_of_mem hf)))
  rw [List.isChain_map]
  refine h.increasing.imp_of_mem_imp fun f g hf hg hlt => ?_
  rw [← Bool.not_eq_true, Number.lessOrEqual_iff_value (hfinite g hg) (hfinite f hf)]
  exact not_le.mpr hlt

/-- The check of fields in order with an exact sum. -/
theorem InOrder.checkLayout_exact {r : Decl.Record} (h : InOrder r) (hexact : AddedExactly r) :
    (Tiled r → checkLayout r = .ok ())
      ∧ (¬ Tiled r → ∃ covered, coveredBytes r.fields = .ok covered ∧ Reported r covered) := by
  obtain ⟨covered, hcovered, hfinite, hvalue⟩ := hexact
  have hsize : r.type.sizeOf.IsFinite := h.finite _ List.mem_cons_self
  have hequal : covered.equal r.type.sizeOf = true ↔ Tiled r := by
    rw [Number.equal_iff_value hfinite hsize, hvalue, h.tiled_iff_sum]
  obtain ⟨haccepts, hreports⟩ := checkLayout_covered h.nonempty h.follow hcovered
  refine ⟨fun htiled => haccepts (hequal.mpr htiled), fun hgap => ⟨covered, hcovered, ?_⟩⟩
  exact hreports (Bool.eq_false_iff.mpr fun hc => hgap (hequal.mp hc))

/-- What the sum of a record's fields tells about their places. -/
structure SeesGaps (r : Decl.Record) : Prop where
  /-- Only records without a gap are accepted, and all of these. -/
  accepts (h : InOrder r) (hexact : AddedExactly r) : checkLayout r = .ok () ↔ Tiled r
  /-- A record that is not tiled has a gap somewhere. -/
  gap (h : InOrder r) : ¬ Tiled r ↔ Gap r
  reports (h : InOrder r) (hexact : AddedExactly r) (hgap : Gap r) :
    ∃ covered, coveredBytes r.fields = .ok covered ∧ Reported r covered
  integers (h : ∀ n ∈ extents r.fields, ¬ n.IsDouble) : AddedExactly r
  naturals (h : InOrder r) (hnatural : ∀ n ∈ extents r.fields, n.Natural)
    (hsize : r.type.sizeOf.value ≤ twoTo 53) : AddedExactly r

/-- **No gap goes unreported.**  If the fields of a record lie within it one behind the other, and
their sizes and paddings are added up without rounding, then the check accepts the record exactly if
the fields tile it, and otherwise there is a gap and the record is refused.  Integers are added up
without rounding whatever they are, and natural numbers in either form as long as the record has at
most `2 ^ 53` bytes. -/
theorem gaps_reported (r : Decl.Record) : SeesGaps r where
  accepts h hexact := by
    obtain ⟨haccepts, hreports⟩ := h.checkLayout_exact hexact
    refine ⟨?_, haccepts⟩
    intro haccepted
    by_contra hgap
    obtain ⟨covered, -, hrefused | ⟨hfault, -⟩⟩ := hreports hgap
    · cases haccepted.symm.trans hrefused
    · cases haccepted.symm.trans hfault
  gap h := h.gap_iff.symm
  reports h hexact hgap := (h.checkLayout_exact hexact).2 (h.gap_iff.mp hgap)
  integers := addedExactly_of_integers
  naturals := addedExactly_of_naturals

/-! ## Two fields -/

/-- A record of two fields, of which the first has a padding. -/
def pairRecord (size size₁ padding : Number) (offset : Nat) (size₂ : Number) : Decl.Record where
  name := "Pair"
  location := none
  type := sizedType "Pair" size
  fields := [⟨"first", none, sizedType "int" size₁, .int 0, padding⟩,
    ⟨"second", none, sizedType "int" size₂, .int offset, .int 0⟩]
  nested := []

section Pair

variable {size size₁ padding size₂ : Number} {n k₁ offset k₂ : Nat}

theorem pairRecord_inOrder (hsize : size.IsNat n) (h₁ : size₁.IsNat k₁) (hpadding : padding.IsNat 0)
    (h₂ : size₂.IsNat k₂) (hpos : 0 < offset) (hapart : k₁ ≤ offset) (hlast : offset + k₂ ≤ n) :
    InOrder (pairRecord size size₁ padding offset size₂) where
  finite := by
    simp [checkedNumbers, extents, pairRecord, sizedType, hsize.1, h₁.1, hpadding.1, h₂.1]
  nonempty := List.cons_ne_nil _ _
  increasing := by simpa [pairRecord] using hpos
  first := by simp [pairRecord]
  apart := by
    simpa [pairRecord, stop, bytes, sizedType, h₁.2, hpadding.2] using hapart
  last := by
    have hlast' : ((offset + k₂ : Nat) : ℚ) ≤ n := Nat.cast_le.mpr hlast
    simpa [pairRecord, stop, bytes, sizedType, h₂.2, hsize.2] using hlast'

theorem pairRecord_gap (h₁ : size₁.IsNat k₁) (hpadding : padding.IsNat 0) (h : k₁ < offset) :
    Gap (pairRecord size size₁ padding offset size₂) := by
  refine .between ⟨[], [], rfl⟩ ?_
  simpa [stop, bytes, sizedType, h₁.2, hpadding.2] using h

end Pair

/-- Four bytes at the beginning and four behind a gap. -/
def looseRecord : Decl.Record := pairRecord (.int 12) (.int 4) (.int 0) 8 (.int 4)

/-- Twice four bytes, with doubles for some of the numbers. -/
def tightRecord : Decl.Record :=
  pairRecord (.int 8) (.double (Binary64.ofInt 4)) (.double (Binary64.zero false)) 4 (.int 4)

theorem gaps_reported_loose :
    (InOrder looseRecord ∧ Gap looseRecord
      ∧ ∃ covered, coveredBytes looseRecord.fields = .ok covered ∧ Reported looseRecord covered)
    ∧ InOrder tightRecord ∧ checkLayout tightRecord = .ok () ∧ Tiled tightRecord := by
  have hfour : (Number.double (Binary64.ofInt 4)).IsNat 4 := @Binary64.isNat_ofInt 4 (by decide)
  have hzero : (Number.double (Binary64.zero false)).IsNat 0 := Binary64.isNat_zero false
  have hloose : InOrder looseRecord :=
    pairRecord_inOrder (Number.isNat_int 12) (Number.isNat_int 4) (Number.isNat_int 0)
      (Number.isNat_int 4) (by decide) (by decide) (by decide)
  have hgap : Gap looseRecord :=
    pairRecord_gap (Number.isNat_int 4) (Number.isNat_int 0) (by decide)
  have htight : InOrder tightRecord :=
    pairRecord_inOrder (Number.isNat_int 8) hfour hzero (Number.isNat_int 4) (by decide) (by decide)
      (by decide)
  have haccepted : checkLayout tightRecord = .ok () := by
    rw [← toOption_eq_some]
    decide +kernel
  have hintegers : ∀ n ∈ extents looseRecord.fields, ¬ n.IsDouble := by
    simp [extents, looseRecord, pairRecord, sizedType, Number.IsDouble]
  have hwhole : ∀ n ∈ extents tightRecord.fields, n.isWhole = true ∧ n.less 0 = false := by
    decide +kernel
  have hnaturals : ∀ n ∈ extents tightRecord.fields, n.Natural := fun n hn =>
    Number.natural_of_isWhole (hwhole n hn).1 (hwhole n hn).2
  have hsmall : tightRecord.type.sizeOf.value ≤ twoTo 53 := by
    norm_num [tightRecord, pairRecord, sizedType, twoTo]
  refine ⟨⟨hloose, hgap, ?_⟩, htight, haccepted, ?_⟩
  · have hsees := gaps_reported looseRecord
    exact hsees.reports hloose (hsees.integers hintegers) hgap
  · have hsees := gaps_reported tightRecord
    have hexact := hsees.naturals htight hnaturals hsmall
    exact (hsees.accepts htight hexact).mp haccepted

/-- A gap of a byte in the middle of a record of more bytes than doubles count up to. -/
def longRecord : Decl.Record :=
  pairRecord (.int (twoTo 53 + 4 : Nat)) (.int (twoTo 53 : Nat)) (.double (Binary64.zero false))
    (twoTo 53 + 1) (.int 3)

theorem rounding_hides_gap :
    InOrder longRecord ∧ (∀ f ∈ longRecord.fields, ¬ f.offset.IsDouble) ∧ Gap longRecord
      ∧ ¬ Tiled longRecord ∧ checkLayout longRecord = .ok () := by
  have hzero : (Number.double (Binary64.zero false)).IsNat 0 := Binary64.isNat_zero false
  have horder : InOrder longRecord :=
    pairRecord_inOrder (Number.isNat_int _) (Number.isNat_int _) hzero (Number.isNat_int 3)
      (by decide) (by decide) (by decide)
  have hgap : Gap longRecord := pairRecord_gap (Number.isNat_int _) hzero (by decide)
  refine ⟨horder, ?_, hgap, horder.gap_iff.mp hgap, ?_⟩
  · simp [longRecord, pairRecord, Number.IsDouble]
  · rw [← toOption_eq_some]
    decide +kernel

end Binding

end Interop
