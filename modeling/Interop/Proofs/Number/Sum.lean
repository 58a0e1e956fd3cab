import Interop.Proofs.Failing
import Interop.Proofs.Number.Text
import Mathlib

/-!
# Sums of numbers

A sum of integers is exact and always there.  A sum can fail in one way only: it meets a double,
and an integer of it is too large to be one.  Integers from `doubleLimit` on are, so the magnitudes
of the integers in such a sum add up to that much at least (`sum_ends`).
-/

set_option autoImplicit false

namespace Interop

/-! ## Integers too large for a double -/

/-- The least magnitude that is rounded to an infinity. -/
def doubleLimit : Nat := twoTo 1024 - twoTo 970

theorem twoTo_pos (k : Nat) : 0 < twoTo k := Nat.two_pow_pos k

theorem twoTo_add (j k : Nat) : twoTo (j + k) = twoTo j * twoTo k := Nat.pow_add 2 j k

theorem twoTo_mono {j k : Nat} (h : j ≤ k) : twoTo j ≤ twoTo k :=
  Nat.pow_le_pow_right (by decide) h

namespace Binary64

/-- Rounding moves a quotient up by a half at most. -/
theorem roundDiv_le {num den : Nat} (h : 0 < den) :
    2 * (den * roundDiv num den) ≤ 2 * num + den := by
  have hdiv := Nat.div_add_mod num den
  have hmod := Nat.mod_lt num h
  unfold roundDiv
  dsimp only
  split
  · omega
  · rename_i hup
    rw [Nat.mul_add]
    omega

theorem floorLog2_one {num : Nat} (h : num ≠ 0) : floorLog2 num 1 = num.log2 := by
  have hself : 2 ^ num.log2 ≤ num := Nat.log2_self_le h
  have hneg : (-((num.log2 : Int) - (0 : Nat))).toNat = 0 := by omega
  have hpos : ((num.log2 : Int) - (0 : Nat)).toNat = num.log2 := by omega
  have hlog : Nat.log2 1 = 0 := by decide
  unfold floorLog2
  simp only [hlog, hneg, hpos, twoTo, Nat.pow_eq, Nat.pow_zero, Nat.mul_one, Nat.one_mul]
  rw [if_neg (Nat.not_lt.mpr hself)]
  omega

theorem doubleLimit_le_of_log2 {num : Nat} (h : num ≠ 0) (hlog : 1024 ≤ num.log2) :
    doubleLimit ≤ num := by
  have hself : twoTo num.log2 ≤ num := Nat.log2_self_le h
  have hlimit : doubleLimit ≤ twoTo 1024 := Nat.sub_le _ _
  exact Nat.le_trans hlimit (Nat.le_trans (twoTo_mono hlog) hself)

/-- The significand of an integer just below `2 ^ 1024` is rounded up to the next power of two. -/
theorem doubleLimit_le_of_roundDiv {num : Nat} (h : roundDiv num (twoTo 971) = twoTo 53) :
    doubleLimit ≤ num := by
  have hround := @roundDiv_le num (twoTo 971) (twoTo_pos 971)
  have hproduct : twoTo 1024 = twoTo 971 * twoTo 53 := twoTo_add 971 53
  have hhalf : twoTo 971 = twoTo 970 * twoTo 1 := twoTo_add 970 1
  have htwo : twoTo 1 = 2 := rfl
  rw [h, ← hproduct, hhalf, htwo] at hround
  unfold doubleLimit
  generalize twoTo 1024 = a at hround ⊢
  generalize twoTo 970 = b at hround ⊢
  omega

theorem doubleLimit_le_of_ofInt {n : Int} {negative : Bool} (h : ofInt n = .infinite negative) :
    doubleLimit ≤ n.natAbs := by
  unfold ofInt ofRatio at h
  split at h
  · simp [zero] at h
  · rename_i hne
    have hnum : n.natAbs ≠ 0 := fun hz => hne (.inl hz)
    by_cases hlog : 1024 ≤ n.natAbs.log2
    · exact doubleLimit_le_of_log2 hnum hlog
    -- Only a significand that is rounded up can still make an infinity.
    have hexp : max (floorLog2 n.natAbs 1 - 52) (-1074) = (n.natAbs.log2 : Int) - 52 := by
      rw [floorLog2_one hnum]
      omega
    rw [hexp] at h
    dsimp only at h
    split at h
    · rename_i hround
      dsimp only at h
      split at h
      · rename_i hlarge
        have hlog' : n.natAbs.log2 = 1023 := by omega
        have hnum : n.natAbs * twoTo (-(((1023 : Nat) : Int) - 52)).toNat = n.natAbs := Nat.mul_one _
        have hden : 1 * twoTo (((1023 : Nat) : Int) - 52).toNat = twoTo 971 := Nat.one_mul _
        rw [hlog', hnum, hden] at hround
        exact doubleLimit_le_of_roundDiv hround
      · simp at h
    · dsimp only at h
      split at h
      · omega
      · simp at h

end Binary64

/-! ## Sums -/

namespace Number

/-- The size of an integer; a double counts for nothing. -/
def magnitude : Number → Nat
  | .int n => n.natAbs
  | .double _ => 0

def IsDouble : Number → Prop
  | .int _ => False
  | .double _ => True

theorem toDouble_ends (n : Number) :
    Ends n.toDouble (fun _ => True) fun e => e = .tooLargeForDouble ∧ doubleLimit ≤ n.magnitude := by
  cases n with
  | double x => exact Ends.ok trivial
  | int n =>
    unfold toDouble
    dsimp only
    split
    · rename_i hinfinite
      exact Ends.error ⟨rfl, Binary64.doubleLimit_le_of_ofInt hinfinite⟩
    · exact Ends.ok trivial

/-- A double is among the numbers, and their integers are large when taken together. -/
structure Unsummable (ns : List Number) : Prop where
  double : ∃ n ∈ ns, n.IsDouble
  large : doubleLimit ≤ (ns.map magnitude).sum

theorem Unsummable.of_append_left {ms ns : List Number} (h : Unsummable ms) :
    Unsummable (ms ++ ns) where
  double := by
    obtain ⟨n, hn, hd⟩ := h.double
    exact ⟨n, List.mem_append_left _ hn, hd⟩
  large := by
    have hlarge := h.large
    rw [List.map_append, List.sum_append]
    omega

theorem Unsummable.of_append_right {ms ns : List Number} (h : Unsummable ns) :
    Unsummable (ms ++ ns) where
  double := by
    obtain ⟨n, hn, hd⟩ := h.double
    exact ⟨n, List.mem_append_right _ hn, hd⟩
  large := by
    have hlarge := h.large
    rw [List.map_append, List.sum_append]
    omega

theorem Unsummable.flatMap {α : Type} {f : α → List Number} {xs : List α} {x : α}
    (h : Unsummable (f x)) (hx : x ∈ xs) : Unsummable (xs.flatMap f) := by
  induction xs with
  | nil => exact absurd hx (by simp)
  | cons y ys ih =>
    rw [List.flatMap_cons]
    rcases List.mem_cons.mp hx with rfl | hx
    · exact h.of_append_left
    · exact (ih hx).of_append_right

/-- What is known of a number that other numbers add up to. -/
structure AddsUp (ns : List Number) (r : Number) : Prop where
  magnitude : r.magnitude ≤ (ns.map magnitude).sum
  double : r.IsDouble → ∃ n ∈ ns, n.IsDouble

/-- Two numbers are integers, or there is a double among them. -/
theorem ints_or_double (a b : Number) :
    (∃ m n, a = .int m ∧ b = .int n) ∨ ∃ n ∈ [a, b], n.IsDouble := by
  cases a with
  | double x => exact .inr ⟨_, List.mem_cons_self, trivial⟩
  | int m =>
    cases b with
    | double y => exact .inr ⟨_, List.mem_cons_of_mem _ List.mem_cons_self, trivial⟩
    | int n => exact .inl ⟨m, n, rfl, rfl⟩

/-- With a double among the two numbers, an operation is done on doubles. -/
theorem lift_of_double {a b : Number} (h : ∃ n ∈ [a, b], n.IsDouble)
    (onInts : Int → Int → Int) (onDoubles : Binary64 → Binary64 → Binary64) :
    lift onInts onDoubles a b = (do return .double (onDoubles (← a.toDouble) (← b.toDouble))) := by
  cases a with
  | double x => rfl
  | int m =>
    cases b with
    | double y => rfl
    | int n => simp [IsDouble] at h

/-- An operation on doubles fails only with an integer that is too large for one. -/
theorem lift_ends_of_double {a b : Number} (h : ∃ n ∈ [a, b], n.IsDouble)
    (onInts : Int → Int → Int) (onDoubles : Binary64 → Binary64 → Binary64) :
    Ends (lift onInts onDoubles a b) (·.magnitude = 0)
      fun e => e = .tooLargeForDouble ∧ Unsummable [a, b] := by
  have hsum : ([a, b].map magnitude).sum = a.magnitude + b.magnitude := by simp
  rw [lift_of_double h]
  refine ((toDouble_ends a).failing fun e he => ?_).bind fun x _ => ?_
  · exact ⟨he.1, h, Nat.le_trans he.2 (by omega)⟩
  refine ((toDouble_ends b).failing fun e he => ?_).bind fun y _ => ?_
  · exact ⟨he.1, h, Nat.le_trans he.2 (by omega)⟩
  exact Ends.ok rfl

theorem lift_ends (onInts : Int → Int → Int) (onDoubles : Binary64 → Binary64 → Binary64)
    (a b : Number) :
    Ends (lift onInts onDoubles a b) (fun r => r.IsDouble → ∃ n ∈ [a, b], n.IsDouble)
      fun e => e = .tooLargeForDouble ∧ Unsummable [a, b] := by
  rcases ints_or_double a b with ⟨m, n, rfl, rfl⟩ | h
  · exact Ends.ok fun h => h.elim
  · exact (lift_ends_of_double h _ _).mono (fun _ _ _ => h) fun _ he => he

theorem add_ends (a b : Number) :
    Ends (a.add b) (AddsUp [a, b]) fun e => e = .tooLargeForDouble ∧ Unsummable [a, b] := by
  have hsum : ([a, b].map magnitude).sum = a.magnitude + b.magnitude := by simp
  rcases ints_or_double a b with ⟨m, n, rfl, rfl⟩ | h
  · exact Ends.ok ⟨hsum ▸ Int.natAbs_add_le m n, fun h => h.elim⟩
  · refine (lift_ends_of_double h _ _).mono (fun r hr => ⟨?_, fun _ => h⟩) fun _ he => he
    rw [hr]
    exact Nat.zero_le _

/-- A number may take the place of those that add up to it. -/
theorem Unsummable.of_addsUp {ns ms : List Number} {r : Number} (hr : AddsUp ns r)
    (h : Unsummable (r :: ms)) : Unsummable (ns ++ ms) where
  double := by
    obtain ⟨x, hx, hd⟩ := h.double
    rcases List.mem_cons.mp hx with rfl | hx
    · obtain ⟨n, hn, hd⟩ := hr.double hd
      exact ⟨n, List.mem_append_left _ hn, hd⟩
    · exact ⟨x, List.mem_append_right _ hx, hd⟩
  large := by
    have hlarge := h.large
    have hmagnitude := hr.magnitude
    rw [List.map_cons, List.sum_cons] at hlarge
    rw [List.map_append, List.sum_append]
    omega

/-- Numbers may take the places of those that each of them adds up. -/
theorem Unsummable.of_forall₂ {α : Type} {f : α → List Number} {xs : List α} {rs : List Number}
    (h : Unsummable rs) (hrs : List.Forall₂ (fun x r => AddsUp (f x) r) xs rs) :
    Unsummable (xs.flatMap f) := by
  have hlarge : (rs.map magnitude).sum ≤ ((xs.flatMap f).map magnitude).sum := by
    clear h
    induction hrs with
    | nil => exact Nat.le_refl 0
    | cons hr _ ih =>
      have hmagnitude := hr.magnitude
      rw [List.flatMap_cons, List.map_append, List.sum_append, List.map_cons, List.sum_cons]
      omega
  have hdouble : (∃ r ∈ rs, r.IsDouble) → ∃ n ∈ xs.flatMap f, n.IsDouble := by
    clear h hlarge
    induction hrs with
    | nil => exact fun ⟨r, hr, _⟩ => absurd hr (by simp)
    | cons hr _ ih =>
      rintro ⟨r', hr', hd⟩
      rw [List.flatMap_cons]
      rcases List.mem_cons.mp hr' with rfl | hr'
      · obtain ⟨n, hn, hd⟩ := hr.double hd
        exact ⟨n, List.mem_append_left _ hn, hd⟩
      · obtain ⟨n, hn, hd⟩ := ih ⟨r', hr', hd⟩
        exact ⟨n, List.mem_append_right _ hn, hd⟩
  exact ⟨hdouble h.double, Nat.le_trans h.large hlarge⟩

theorem foldlM_add_ends (ns : List Number) (total : Number) :
    Ends (ns.foldlM add total) (fun _ => True)
      fun e => e = .tooLargeForDouble ∧ Unsummable (total :: ns) := by
  induction ns generalizing total with
  | nil => exact Ends.ok trivial
  | cons n ns ih =>
    rw [List.foldlM_cons]
    have hadd := (add_ends total n).failing fun e he =>
      And.intro he.1 (@Unsummable.of_append_left [total, n] ns he.2)
    refine hadd.bind fun r hr => (ih r).failing fun e he => ?_
    exact ⟨he.1, he.2.of_addsUp hr⟩

theorem sum_ends (ns : List Number) :
    Ends (sum ns) (fun _ => True) fun e => e = .tooLargeForDouble ∧ Unsummable ns := by
  have hzero : AddsUp [] 0 := ⟨Nat.le_refl 0, fun h => h.elim⟩
  exact (foldlM_add_ends ns 0).failing fun e he => ⟨he.1, he.2.of_addsUp hzero⟩

/-! ## Integers -/

theorem eq_int_of_not_isDouble {n : Number} (h : ¬ n.IsDouble) : n = .int n.integer := by
  cases n with
  | int n => rfl
  | double x => exact absurd trivial h

theorem equal_int (a b : Int) : (int a).equal (int b) = true ↔ a = b := by
  simp [equal, compare?]

theorem lessOrEqual_int (a b : Int) : (int a).lessOrEqual (int b) = false ↔ b < a := by
  simp only [lessOrEqual, compare?]
  cases hab : compare a b with
  | lt => simpa using Int.le_of_lt (compare_lt_iff_lt.mp hab)
  | eq => simpa using Int.le_of_eq (compare_eq_iff_eq.mp hab)
  | gt => simpa using compare_gt_iff_gt.mp hab

theorem sum_int (ns : List Int) : sum (ns.map int) = .ok (.int ns.sum) := by
  have hfold (total : Int) : (ns.map int).foldlM add (int total) = .ok (.int (total + ns.sum)) := by
    induction ns generalizing total with
    | nil => rw [List.sum_nil, Int.add_zero]; rfl
    | cons n ns ih =>
      rw [List.map_cons, List.foldlM_cons, List.sum_cons, ← Int.add_assoc]
      exact ih (total + n)
  exact (hfold 0).trans (by rw [Int.zero_add])

end Number

end Interop
