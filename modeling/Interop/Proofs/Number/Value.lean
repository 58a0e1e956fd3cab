import Interop.Proofs.Number.Sum

/-!
# The values of numbers

A number that is an integer or a finite double has an exact value (`Number.value`).  Numbers are
compared by their values, so equality and order are those of the rational numbers
(`equal_iff_value`, `lessOrEqual_iff_value`).  Addition is another matter, since a double is
rounded: it is exact on natural numbers with a sum of at most `2 ^ 53` (`sum_natural`).
-/

set_option autoImplicit false

namespace Interop

/-! ## Values of doubles -/

namespace Binary64

/-- The exact value of a finite double; what is not finite counts as zero. -/
def value (x : Binary64) : ℚ :=
  match x.toRatio? with
  | some (num, den) => num / den
  | none => 0

def IsFinite : Binary64 → Prop
  | .finite .. => True
  | _ => False

/-- A finite double is an integer over a power of two. -/
theorem IsFinite.ratio {x : Binary64} (h : x.IsFinite) :
    ∃ (num : Int) (j : Nat), x.toRatio? = some (num, twoTo j) ∧ x.value = num / twoTo j := by
  cases x with
  | nan => exact h.elim
  | infinite s => exact h.elim
  | finite s m e => exact ⟨_, _, rfl, rfl⟩

theorem value_finite (s : Bool) (m : Nat) (e : Int) :
    (finite s m e).value = (if s then -1 else 1) * m * (2 : ℚ) ^ e := by
  have hvalue : (finite s m e).value =
      (if s then -1 else 1) * m * ((twoTo e.toNat : ℚ) / twoTo (-e).toNat) := by
    cases s
    · simp [value, toRatio?, mul_div_assoc]
    · simp only [value, toRatio?, if_true]
      push_cast
      ring
  have htwo (n : Nat) : (twoTo n : ℚ) = 2 ^ n := by simp [twoTo]
  rw [hvalue, htwo, htwo]
  obtain ⟨n, rfl | rfl⟩ := e.eq_nat_or_neg
  · simp
  · simp

theorem twoTo_ne_zero (j : Nat) : (twoTo j : ℚ) ≠ 0 :=
  Nat.cast_ne_zero.mpr (twoTo_pos j).ne'

/-- How a finite double compares with a quotient: both are brought to one denominator. -/
theorem IsFinite.compareRatio {x : Binary64} (h : x.IsFinite) {num : Int} {j : Nat}
    (hx : x.toRatio? = some (num, twoTo j)) (a : Int) (b : Nat) :
    x.compareRatio a b = some (compare (num * b) (a * twoTo j)) := by
  cases x with
  | nan => exact h.elim
  | infinite s => exact h.elim
  | finite s m e => simp [Binary64.compareRatio, hx]

/-! ## Rounding of whole numbers -/

theorem roundDiv_mul {den : Nat} (h : 0 < den) (m : Nat) : roundDiv (m * den) den = m := by
  simp [roundDiv, Nat.mul_div_cancel m h, h]

theorem floorLog2_mul_twoTo {k : Nat} (hk : k ≠ 0) (j : Nat) :
    floorLog2 (k * twoTo j) (twoTo j) = k.log2 := by
  have hself : twoTo k.log2 ≤ k := Nat.log2_self_le hk
  have hlog : (k * twoTo j).log2 = k.log2 + j := by
    have hne : k * twoTo j ≠ 0 := Nat.mul_ne_zero hk (twoTo_pos j).ne'
    have hlt : k < twoTo (k.log2 + 1) := Nat.lt_log2_self
    refine (Nat.log2_eq_iff hne).mpr ⟨?_, ?_⟩
    · exact Nat.le_trans (Nat.le_of_eq (twoTo_add k.log2 j)) (Nat.mul_le_mul_right _ hself)
    · have hmul := Nat.mul_lt_mul_of_pos_right hlt (twoTo_pos j)
      rw [← twoTo_add] at hmul
      exact Nat.lt_of_lt_of_eq hmul (congrArg twoTo (by omega))
  have hden : (twoTo j).log2 = j := Nat.log2_two_pow
  have hdiff : ((k.log2 + j : Nat) : Int) - j = k.log2 := by omega
  unfold floorLog2
  simp only [hlog, hden, hdiff, Int.toNat_natCast]
  rw [if_neg]
  have hneg : (-(k.log2 : Int)).toNat = 0 := by omega
  rw [hneg, Nat.not_lt, show twoTo 0 = 1 from rfl, Nat.mul_one, Nat.mul_comm]
  exact Nat.mul_le_mul_right _ hself

/-- The significand of a whole number is the number, filled up with zeros to 53 binary digits. -/
theorem ofRatio_below {k : Nat} (hk : k ≠ 0) (hlt : k < twoTo 53) (j : Nat) :
    ofRatio false (k * twoTo j) (twoTo j) =
      .finite false (k * twoTo (52 - k.log2)) (-((52 - k.log2 : Nat) : Int)) := by
  have hpos := twoTo_pos j
  have hne : ¬ (k * twoTo j = 0 ∨ twoTo j = 0) := by
    have := Nat.mul_ne_zero hk hpos.ne'
    omega
  have hlog : k.log2 ≤ 52 := Nat.lt_succ_iff.mp ((Nat.log2_lt hk).mpr hlt)
  have he : max ((k.log2 : Int) - 52) (-1074) = -((52 - k.log2 : Nat) : Int) := by omega
  have hm : roundDiv (k * twoTo j * twoTo (52 - k.log2)) (twoTo j * twoTo 0)
      = k * twoTo (52 - k.log2) := by
    rw [show twoTo 0 = 1 from rfl, Nat.mul_one, Nat.mul_right_comm, roundDiv_mul hpos]
  have hsmall : k * twoTo (52 - k.log2) < twoTo 53 := by
    have hself : k < twoTo (k.log2 + 1) := Nat.lt_log2_self
    have hmul := Nat.mul_lt_mul_of_pos_right hself (twoTo_pos (52 - k.log2))
    rw [← twoTo_add] at hmul
    exact Nat.lt_of_lt_of_eq hmul (congrArg twoTo (by omega))
  unfold ofRatio
  rw [if_neg hne, floorLog2_mul_twoTo hk, he]
  simp only [neg_neg, Int.toNat_natCast, Int.toNat_neg_natCast, hm]
  rw [if_neg hsmall.ne]
  dsimp only
  rw [if_neg (by omega)]

/-- One digit more can be left away only because it is a zero. -/
theorem ofRatio_limit (j : Nat) :
    ofRatio false (twoTo 53 * twoTo j) (twoTo j) = .finite false (twoTo 52) 1 := by
  have hpos := twoTo_pos j
  have hlimit : twoTo 53 ≠ 0 := (twoTo_pos 53).ne'
  have hne : ¬ (twoTo 53 * twoTo j = 0 ∨ twoTo j = 0) := by
    have := Nat.mul_ne_zero hlimit hpos.ne'
    omega
  have hlog : (twoTo 53).log2 = 53 := Nat.log2_two_pow
  have he : max (((53 : Nat) : Int) - 52) (-1074) = 1 := by decide
  have hm : roundDiv (twoTo 53 * twoTo j * twoTo 0) (twoTo j * twoTo 1) = twoTo 52 := by
    have hsplit : twoTo 53 * twoTo j * twoTo 0 = twoTo 52 * (twoTo j * twoTo 1) := by
      rw [← twoTo_add, ← twoTo_add, ← twoTo_add, ← twoTo_add]
      exact congrArg twoTo (by omega)
    rw [hsplit, roundDiv_mul (Nat.mul_pos hpos (twoTo_pos 1))]
  unfold ofRatio
  rw [if_neg hne, floorLog2_mul_twoTo hlimit, hlog, he]
  simp only [show (-(1 : Int)).toNat = 0 from rfl, show (1 : Int).toNat = 1 from rfl, hm]
  rw [if_neg (by decide), if_neg (by decide)]

/-- A whole number of at most `2 ^ 53` is a double. -/
theorem ofRatio_whole {k : Nat} (hk : k ≤ twoTo 53) (j : Nat) :
    (ofRatio false (k * twoTo j) (twoTo j)).IsFinite
      ∧ (ofRatio false (k * twoTo j) (twoTo j)).value = k := by
  by_cases hzero : k = 0
  · subst hzero
    rw [Nat.zero_mul, ofRatio, if_pos (.inl rfl)]
    exact ⟨trivial, by simp [zero, value_finite]⟩
  rcases Nat.lt_or_eq_of_le hk with hlt | rfl
  · have htwo : (2 : ℚ) ^ (52 - k.log2) ≠ 0 := pow_ne_zero _ two_ne_zero
    rw [ofRatio_below hzero hlt]
    refine ⟨trivial, ?_⟩
    rw [value_finite, zpow_neg, zpow_natCast]
    simp [twoTo, htwo]
  · rw [ofRatio_limit]
    refine ⟨trivial, ?_⟩
    rw [value_finite]
    norm_num [twoTo]

/-! ## Addition of whole numbers -/

/-- A double that is this natural number. -/
def IsNat (x : Binary64) (k : Nat) : Prop := x.IsFinite ∧ x.value = k

theorem isNat_zero (s : Bool) : (zero s).IsNat 0 := ⟨trivial, by simp [zero, value_finite]⟩

theorem isNat_ofSigned {k : Nat} (hk : k ≤ twoTo 53) (s : Bool) (j : Nat) :
    (ofSigned s ((k * twoTo j : Nat) : Int) (twoTo j)).IsNat k := by
  unfold ofSigned
  split
  · next hzero =>
    have hk0 : k = 0 := by
      have := twoTo_pos j
      rcases Nat.mul_eq_zero.mp (Int.natCast_eq_zero.mp hzero) with h | h
      · exact h
      · omega
    rw [hk0]
    exact isNat_zero s
  · rw [Int.natAbs_natCast, decide_eq_false (Int.not_lt.mpr (Int.natCast_nonneg _))]
    exact ofRatio_whole hk j

theorem isNat_ofInt {k : Nat} (hk : k ≤ twoTo 53) : (ofInt k).IsNat k := by
  have h := ofRatio_whole hk 0
  rw [show twoTo 0 = 1 from rfl, Nat.mul_one] at h
  rw [ofInt, Int.natAbs_natCast, decide_eq_false (Int.not_lt.mpr (Int.natCast_nonneg _))]
  exact h

/-- The numerator of a whole double is a multiple of the denominator. -/
theorem IsNat.ratio {x : Binary64} {k : Nat} (h : x.IsNat k) :
    ∃ j, x.toRatio? = some (((k * twoTo j : Nat) : Int), twoTo j) := by
  obtain ⟨num, j, hratio, hvalue⟩ := h.1.ratio
  have hnum : (num : ℚ) = ((k * twoTo j : Nat) : Int) := by
    rw [h.2, eq_div_iff (twoTo_ne_zero j)] at hvalue
    rw [← hvalue]
    push_cast
    rfl
  exact ⟨j, by rw [hratio, Int.cast_inj.mp hnum]⟩

/-- Natural numbers are added exactly, up to `2 ^ 53`. -/
theorem IsNat.add {x y : Binary64} {a b : Nat} (hx : x.IsNat a) (hy : y.IsNat b)
    (h : a + b ≤ twoTo 53) : (x.add y).IsNat (a + b) := by
  obtain ⟨i, hi⟩ := hx.ratio
  obtain ⟨j, hj⟩ := hy.ratio
  have hadd : ∃ s, x.add y =
      ofSigned s (((a + b) * twoTo (i + j) : Nat) : Int) (twoTo (i + j)) := by
    cases x with
    | nan => exact hx.1.elim
    | infinite s => exact hx.1.elim
    | finite s m e =>
      cases y with
      | nan => exact hy.1.elim
      | infinite t => exact hy.1.elim
      | finite t n f =>
        refine ⟨s && t, ?_⟩
        simp only [Binary64.add, hi, hj, twoTo_add]
        congr 1
        push_cast
        ring
  obtain ⟨s, hs⟩ := hadd
  rw [hs]
  exact isNat_ofSigned h s (i + j)

end Binary64

/-! ## Values of numbers -/

namespace Number

/-- The exact value of a number; a double that is not finite counts as zero. -/
def value : Number → ℚ
  | .int n => n
  | .double x => x.value

def IsFinite : Number → Prop
  | .int _ => True
  | .double x => x.IsFinite

@[simp] theorem value_int (n : Int) : (int n).value = n := rfl

@[simp] theorem isFinite_int (n : Int) : (int n).IsFinite := trivial

/-- Finite numbers are compared after both are multiplied by one positive number. -/
theorem compare?_eq {a b : Number} (ha : a.IsFinite) (hb : b.IsFinite) :
    ∃ (p q : Int) (s : ℚ), 0 < s ∧ (p : ℚ) = a.value * s ∧ (q : ℚ) = b.value * s
      ∧ a.compare? b = some (compare p q) := by
  have hpos (j : Nat) : (0 : ℚ) < twoTo j := Nat.cast_pos.mpr (twoTo_pos j)
  cases a with
  | int m =>
    cases b with
    | int n => exact ⟨m, n, 1, one_pos, by simp [value], by simp [value], rfl⟩
    | double y =>
      obtain ⟨num, j, hratio, hvalue⟩ := Binary64.IsFinite.ratio hb
      refine ⟨m * twoTo j, num, twoTo j, hpos j, by simp [value], ?_, ?_⟩
      · rw [value, hvalue, div_mul_cancel₀ _ (hpos j).ne']
      · rw [compare?, Binary64.IsFinite.compareRatio hb hratio, Option.map_some, Int.compare_swap]
        simp
  | double x =>
    obtain ⟨num, i, hratio, hvalue⟩ := Binary64.IsFinite.ratio ha
    cases b with
    | int n =>
      refine ⟨num, n * twoTo i, twoTo i, hpos i, ?_, by simp [value], ?_⟩
      · rw [value, hvalue, div_mul_cancel₀ _ (hpos i).ne']
      · rw [compare?, Binary64.IsFinite.compareRatio ha hratio]
        simp
    | double y =>
      obtain ⟨num', j, hratio', hvalue'⟩ := Binary64.IsFinite.ratio hb
      -- Each numerator is multiplied by the denominator of the other one.
      refine ⟨num * twoTo j, num' * twoTo i, twoTo i * twoTo j, mul_pos (hpos i) (hpos j),
        ?_, ?_, ?_⟩
      · rw [value, hvalue]
        push_cast
        field_simp [(hpos i).ne']
      · rw [value, hvalue']
        push_cast
        field_simp [(hpos j).ne']
      · rw [compare?]
        cases y with
        | nan => exact hb.elim
        | infinite t => exact hb.elim
        | finite t n f =>
          rw [Binary64.compare?, hratio', Option.bind_some]
          exact Binary64.IsFinite.compareRatio ha hratio num' (twoTo j)

theorem equal_iff_value {a b : Number} (ha : a.IsFinite) (hb : b.IsFinite) :
    a.equal b = true ↔ a.value = b.value := by
  obtain ⟨p, q, s, hs, hp, hq, hcompare⟩ := compare?_eq ha hb
  have hvalues : p = q ↔ a.value = b.value := by
    rw [← @Int.cast_inj ℚ, hp, hq]
    exact mul_left_inj' hs.ne'
  simp [equal, hcompare, hvalues]

theorem lessOrEqual_iff_value {a b : Number} (ha : a.IsFinite) (hb : b.IsFinite) :
    a.lessOrEqual b = true ↔ a.value ≤ b.value := by
  obtain ⟨p, q, s, hs, hp, hq, hcompare⟩ := compare?_eq ha hb
  have hvalues : p ≤ q ↔ a.value ≤ b.value := by
    rw [← @Int.cast_le ℚ, hp, hq]
    exact mul_le_mul_iff_left₀ hs
  rw [← hvalues, lessOrEqual, hcompare]
  rcases lt_trichotomy p q with h | h | h
  · simp [compare_lt_iff_lt.mpr h, h.le]
  · simp [h]
  · simp [compare_gt_iff_gt.mpr h, h]

/-! ## Sums of natural numbers -/

/-- A number that is this natural number, in either form. -/
def IsNat (n : Number) (k : Nat) : Prop := n.IsFinite ∧ n.value = k

theorem isNat_int (k : Nat) : (int k).IsNat k := ⟨trivial, by simp⟩

theorem IsNat.nonneg {n : Number} {k : Nat} (h : n.IsNat k) : 0 ≤ n.value := by
  rw [h.2]
  exact Nat.cast_nonneg k

theorem IsNat.toDouble {n : Number} {k : Nat} (h : n.IsNat k) (hk : k ≤ twoTo 53) :
    ∃ x, n.toDouble = .ok x ∧ x.IsNat k := by
  cases n with
  | double x => exact ⟨x, rfl, h⟩
  | int n =>
    obtain rfl : n = k := Int.cast_inj.mp h.2
    have hdouble := Binary64.isNat_ofInt hk
    refine ⟨Binary64.ofInt k, ?_, hdouble⟩
    rw [Number.toDouble]
    split
    · next hinfinite =>
      rw [hinfinite] at hdouble
      exact hdouble.1.elim
    · rfl

/-- Two natural numbers are added exactly as long as their sum is at most `2 ^ 53`. -/
theorem IsNat.add {a b : Number} {j k : Nat} (ha : a.IsNat j) (hb : b.IsNat k)
    (h : j + k ≤ twoTo 53) : ∃ c, a.add b = .ok c ∧ c.IsNat (j + k) := by
  rcases ints_or_double a b with ⟨m, n, rfl, rfl⟩ | hdouble
  · refine ⟨.int (m + n), rfl, trivial, ?_⟩
    have hm : (m : ℚ) = j := ha.2
    have hn : (n : ℚ) = k := hb.2
    rw [value, Int.cast_add, hm, hn, Nat.cast_add]
  · obtain ⟨x, hx, hxj⟩ := ha.toDouble (by omega)
    obtain ⟨y, hy, hyk⟩ := hb.toDouble (by omega)
    refine ⟨.double (x.add y), ?_, hxj.add hyk h⟩
    rw [Number.add, lift_of_double hdouble, hx, hy]
    rfl

theorem foldlM_add_natural {ns : List Number} (h : ∀ n ∈ ns, ∃ k, n.IsNat k) {total : Number}
    {t : Nat} (ht : total.IsNat t) (hsum : t + (ns.map value).sum ≤ twoTo 53) :
    ∃ c, ns.foldlM Number.add total = .ok c ∧ c.IsFinite ∧ c.value = t + (ns.map value).sum := by
  induction ns generalizing total t with
  | nil => exact ⟨total, rfl, ht.1, by simp [ht.2]⟩
  | cons n ns ih =>
    obtain ⟨⟨k, hk⟩, hrest⟩ := List.forall_mem_cons.mp h
    have hnonneg : 0 ≤ (ns.map value).sum := by
      refine List.sum_nonneg fun q hq => ?_
      obtain ⟨n', hn', rfl⟩ := List.mem_map.mp hq
      obtain ⟨k', hk'⟩ := hrest n' hn'
      exact hk'.nonneg
    rw [List.map_cons, List.sum_cons, ← add_assoc, hk.2, ← Nat.cast_add] at hsum
    have hle : t + k ≤ twoTo 53 := by
      have : ((t + k : Nat) : ℚ) ≤ twoTo 53 := by linarith
      exact Nat.cast_le.mp this
    obtain ⟨c, hc, hcsum⟩ := ht.add hk hle
    obtain ⟨d, hd, hdfinite, hdsum⟩ := ih hrest hcsum hsum
    refine ⟨d, ?_, hdfinite, ?_⟩
    · rw [List.foldlM_cons, hc]
      exact hd
    · rw [hdsum, List.map_cons, List.sum_cons, hk.2, Nat.cast_add, add_assoc]

/-- Natural numbers are summed exactly as long as their sum is at most `2 ^ 53`. -/
theorem sum_natural {ns : List Number} (h : ∀ n ∈ ns, ∃ k, n.IsNat k)
    (hsum : (ns.map value).sum ≤ twoTo 53) :
    ∃ c, sum ns = .ok c ∧ c.IsFinite ∧ c.value = (ns.map value).sum := by
  have hzero : (0 : Number).IsNat 0 := ⟨trivial, rfl⟩
  obtain ⟨c, hc, hfinite, hvalue⟩ := foldlM_add_natural h hzero (by simpa using hsum)
  exact ⟨c, hc, hfinite, by simpa using hvalue⟩

end Number

end Interop
