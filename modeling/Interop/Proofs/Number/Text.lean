import Interop.Number.Basic
import Interop.Proofs.Failing

/-!
# The texts of numbers

A number is written with few characters: digits, signs, a point, and the letters of an exponent, of
infinities and of what is not a number.  An integer reads back from its text.
-/

set_option autoImplicit false

namespace Interop.Number

/-- The characters that numbers are written with. -/
def isNumeralChar (c : Char) : Bool :=
  c.isDigit || ['-', '+', '.', 'e', 'i', 'n', 'f', 'a'].contains c

theorem isNumeralChar_of_isDigit {c : Char} (h : c.isDigit = true) : isNumeralChar c = true := by
  simp [isNumeralChar, h]

theorem isDigit_of_mem_natDigits {n : Nat} {c : Char} (h : c ∈ natDigits n) :
    c.isDigit = true :=
  Nat.isDigit_of_mem_toDigits (by decide) (by decide) h

theorem isNumeralChar_of_mem_digitsIn {count n : Nat} {c : Char} (h : c ∈ digitsIn count n) :
    isNumeralChar c = true := by
  rcases List.mem_append.mp h with h | h
  · rw [List.eq_of_mem_replicate h]
    rfl
  · exact isNumeralChar_of_isDigit (isDigit_of_mem_natDigits h)

theorem isNumeralChar_of_mem_exponentText {e : Int} {c : Char} (h : c ∈ exponentText e) :
    isNumeralChar c = true := by
  rcases List.mem_cons.mp h with rfl | h
  · rfl
  · rcases List.mem_cons.mp h with rfl | h
    · split <;> rfl
    · exact isNumeralChar_of_mem_digitsIn h

theorem isNumeralChar_of_mem_decimalText {d : Binary64.Decimal} {c : Char}
    (h : c ∈ decimalText d) : isNumeralChar c = true := by
  have hdigits (x : Char) (hx : x ∈ digitsIn d.count d.digits) : isNumeralChar x = true :=
    isNumeralChar_of_mem_digitsIn hx
  have hzeros (n : Nat) (x : Char) (hx : x ∈ List.replicate n '0') : isNumeralChar x = true := by
    rw [List.eq_of_mem_replicate hx]
    rfl
  have hpoint : isNumeralChar '.' = true := rfl
  unfold decimalText at h
  generalize digitsIn d.count d.digits = ds at h hdigits
  split at h
  · split at h
    · simp only [List.mem_cons, List.mem_append] at h
      rcases h with rfl | rfl | h | h
      · rfl
      · rfl
      · exact hzeros _ _ h
      · exact hdigits _ h
    · dsimp only at h
      split at h
      · simp only [List.mem_cons, List.mem_append, List.not_mem_nil, or_false] at h
        rcases h with (h | h) | rfl | rfl
        · exact hdigits _ h
        · exact hzeros _ _ h
        · rfl
        · rfl
      · simp only [List.mem_cons, List.mem_append] at h
        rcases h with h | rfl | h
        · exact hdigits _ (List.mem_of_mem_take h)
        · rfl
        · exact hdigits _ (List.mem_of_mem_drop h)
  · rcases List.mem_append.mp h with h | h
    · -- The mantissa: its digits, with a point after the first if there are more.
      match ds, hdigits, h with
      | [x], hdigits, h => exact hdigits _ h
      | x :: y :: rest, hdigits, h =>
        simp only [List.mem_cons] at h
        rcases h with rfl | rfl | h
        · exact hdigits _ List.mem_cons_self
        · rfl
        · exact hdigits _ (List.mem_cons_of_mem _ (by simpa using h))
    · exact isNumeralChar_of_mem_exponentText h

theorem isNumeralChar_of_mem_doubleText {x : Binary64} {c : Char} (h : c ∈ doubleText x) :
    isNumeralChar c = true := by
  have hbody {m : Nat} {e : Int}
      (h : c ∈ if m = 0 then ['0', '.', '0'] else decimalText (Binary64.shortest m e)) :
      isNumeralChar c = true := by
    split at h
    · simp only [List.mem_cons, List.not_mem_nil, or_false] at h
      rcases h with rfl | rfl | rfl <;> rfl
    · exact isNumeralChar_of_mem_decimalText h
  cases x with
  | nan => exact List.all_eq_true.mp (by decide : (doubleText .nan).all isNumeralChar) c h
  | infinite negative =>
    have hall : (doubleText (.infinite negative)).all isNumeralChar := by
      cases negative <;> decide
    exact List.all_eq_true.mp hall c h
  | finite negative m e =>
    simp only [doubleText] at h
    split at h
    · rcases List.mem_cons.mp h with rfl | h
      · rfl
      · exact hbody h
    · exact hbody h

/-- The integer that a number is; a double is none. -/
def integer : Number → Int
  | .int n => n
  | .double _ => 0

/-- An integer of no more digits than the limit. -/
def Short (n : Int) : Prop := n.natAbs < tenTo digitLimit

theorem short_of_lt_ten {n : Int} (h : n.natAbs < 10) : Short n := by
  have hten (k : Nat) (hk : k ≠ 0) : 10 ≤ tenTo k := Nat.le_self_pow hk 10
  exact Nat.lt_of_lt_of_le h (hten digitLimit (by decide))

/-- From the limit on, a power of ten has one digit more than its exponent. -/
theorem not_short_tenTo {k : Nat} (h : digitLimit ≤ k) : ¬ Short (tenTo k) := by
  unfold Short
  generalize digitLimit = limit at h ⊢
  exact Nat.not_lt.mpr (Nat.pow_le_pow_right (by decide) h)

/-- The sign and the digits of an integer. -/
def signedDigits (n : Int) : List Char :=
  if n < 0 then '-' :: natDigits n.natAbs else natDigits n.natAbs

/-- An integer is written as its sign and its digits, unless it has too many of them. -/
theorem intText_ends (n : Int) :
    Ends (intText n) (· = signedDigits n) (fun e => e = .tooManyDigitsToWrite ∧ ¬ Short n) := by
  unfold intText Short
  -- The limit is a number that no step may compute.
  generalize tenTo digitLimit = limit
  split
  · exact Ends.error ⟨rfl, by omega⟩
  · exact Ends.ok rfl

theorem short_of_intText {n : Int} {t : List Char} (h : intText n = .ok t) : Short n := by
  unfold intText at h
  unfold Short
  generalize tenTo digitLimit = limit at h ⊢
  split at h
  · cases h
  · omega

theorem Short.of_le {m n : Nat} (h : m ≤ n) (hn : Short n) : Short m := by
  unfold Short at hn ⊢
  generalize tenTo digitLimit = limit at hn ⊢
  omega

theorem isNumeralChar_of_mem_signedDigits {n : Int} {c : Char} (h : c ∈ signedDigits n) :
    isNumeralChar c = true := by
  rw [signedDigits] at h
  split at h
  · rcases List.mem_cons.mp h with rfl | h
    · rfl
    · exact isNumeralChar_of_isDigit (isDigit_of_mem_natDigits h)
  · exact isNumeralChar_of_isDigit (isDigit_of_mem_natDigits h)

/-- Numbers are written with numeral characters alone, or have too many digits. -/
theorem text_ends (n : Number) :
    Ends n.text (fun t => ∀ c ∈ t, isNumeralChar c = true) (· = .tooManyDigitsToWrite) := by
  cases n with
  | double x => exact Ends.ok fun c hc => isNumeralChar_of_mem_doubleText hc
  | int n =>
    refine (intText_ends n).mono (fun t ht c hc => ?_) fun _ h => h.1
    exact isNumeralChar_of_mem_signedDigits (ht ▸ hc)

/-! ## Reading integers -/

/-- The natural number that a text begins with, and what follows it. -/
def takeNatural (t : List Char) : Option (Nat × List Char) :=
  match t.takeWhile Char.isDigit with
  | [] => none
  | ds => some (digitsValue ds, t.dropWhile Char.isDigit)

/-- The integer that a text begins with, and what follows it. -/
def takeInteger : List Char → Option (Int × List Char)
  | '-' :: t => (takeNatural t).map fun (n, rest) => (-(n : Int), rest)
  | t => (takeNatural t).map fun (n, rest) => ((n : Int), rest)

/-- No digit stands at the beginning. -/
def NoDigit (t : List Char) : Prop := t.head?.any Char.isDigit = false

theorem digitsValue_natDigits (n : Nat) : digitsValue (natDigits n) = n := by
  rw [digitsValue, natDigits, ← Nat.ofDigitChars_eq_foldl]
  exact Nat.ofDigitChars_ten_toDigits

theorem takeNatural_natDigits (n : Nat) {rest : List Char} (h : NoDigit rest) :
    takeNatural (natDigits n ++ rest) = some (n, rest) := by
  have hdigits : ∀ c ∈ natDigits n, c.isDigit = true := fun c hc => isDigit_of_mem_natDigits hc
  have hrest : rest.takeWhile Char.isDigit = [] ∧ rest.dropWhile Char.isDigit = rest := by
    cases rest with
    | nil => exact ⟨rfl, rfl⟩
    | cons c rest =>
      have hc : c.isDigit = false := h
      exact ⟨List.takeWhile_cons_of_neg (by simp [hc]), List.dropWhile_cons_of_neg (by simp [hc])⟩
  have htake : (natDigits n ++ rest).takeWhile Char.isDigit = natDigits n := by
    rw [List.takeWhile_append_of_pos hdigits, hrest.1, List.append_nil]
  have hdrop : (natDigits n ++ rest).dropWhile Char.isDigit = rest := by
    rw [List.dropWhile_append_of_pos hdigits, hrest.2]
  have hvalue := digitsValue_natDigits n
  rw [takeNatural, htake, hdrop]
  cases hn : natDigits n with
  | nil => exact absurd hn Nat.toDigits_ne_nil
  | cons c ds =>
    rw [hn] at hvalue
    rw [← hvalue]

/-- An integer reads back. -/
theorem takeInteger_signedDigits (n : Int) {rest : List Char} (h : NoDigit rest) :
    takeInteger (signedDigits n ++ rest) = some (n, rest) := by
  have hread := takeNatural_natDigits n.natAbs h
  rw [signedDigits]
  by_cases hn : n < 0
  · rw [if_pos hn]
    show (takeNatural (natDigits n.natAbs ++ rest)).map _ = _
    rw [hread]
    simp only [Option.map_some]
    congr 2
    omega
  · rw [if_neg hn]
    cases hd : natDigits n.natAbs with
    | nil => exact absurd hd Nat.toDigits_ne_nil
    | cons c ds =>
      have hc : c.isDigit = true := isDigit_of_mem_natDigits (hd ▸ List.mem_cons_self)
      rw [hd] at hread
      rw [takeInteger]
      · rw [hread]
        simp only [Option.map_some]
        congr 2
        omega
      · rintro t ht
        obtain rfl := (List.cons.inj ht).1
        exact absurd hc (by decide)

end Interop.Number
