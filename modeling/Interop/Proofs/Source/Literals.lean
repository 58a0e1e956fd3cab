import Interop.Text.Ascii

/-!
# String literals of the source

A regular string literal stands for a sequence of sixteen-bit units: each character between the
quotes for its own units, a backslash and what follows it for those of an escape.  No line ends in a
literal.  A literal is read here as a compiler reads it (`literal?`), without a look at how the
emitter writes one.

A text put between quotes as it is denotes itself exactly if it has no quotes, no backslashes and no
line ends (`literal?_quoted_iff`).  An escape is always longer than what it stands for, so a literal
that was cut short or that has escapes in it never makes up for what it lacks
(`Denotes.length_le`).
-/

set_option autoImplicit false

namespace Interop.Source

/-! ## Units -/

/-- The sixteen-bit units of a code. -/
def units (code : Nat) : List Nat :=
  if code < 0x10000 then [code]
  else [0xD800 + (code - 0x10000) / 0x400, 0xDC00 + (code - 0x10000) % 0x400]

/-- A text as a sequence of sixteen-bit units. -/
def utf16 (t : List Char) : List Nat := t.flatMap fun c => units c.toNat

@[simp] theorem utf16_nil : utf16 [] = [] := rfl

@[simp] theorem utf16_cons (c : Char) (t : List Char) :
    utf16 (c :: t) = units c.toNat ++ utf16 t := rfl

@[simp] theorem utf16_append (s t : List Char) : utf16 (s ++ t) = utf16 s ++ utf16 t :=
  List.flatMap_append

theorem length_units (code : Nat) : 1 ≤ (units code).length ∧ (units code).length ≤ 2 := by
  unfold units
  split
  · exact ⟨Nat.le_refl 1, Nat.le_succ 1⟩
  · exact ⟨Nat.le_succ 1, Nat.le_refl 2⟩

theorem length_le_utf16 (t : List Char) : t.length ≤ (utf16 t).length := by
  induction t with
  | nil => exact Nat.le_refl _
  | cons c t ih =>
    have hunits := (length_units c.toNat).1
    rw [utf16_cons, List.length_append, List.length_cons]
    omega

theorem utf16_length_le {s t : List Char} (h : s.Sublist t) :
    (utf16 s).length ≤ (utf16 t).length := by
  induction h with
  | slnil => exact Nat.le_refl _
  | cons c _ ih =>
    rw [utf16_cons, List.length_append]
    omega
  | cons_cons c _ ih =>
    rw [utf16_cons, utf16_cons, List.length_append, List.length_append]
    omega

/-! ## Reading -/

/-- The value of hexadecimal digits. -/
def hexNumber? (ds : List Char) : Option Nat :=
  (ds.mapM Text.hexValue?).map (·.foldl (fun n d => 16 * n + d) 0)

/-- The value of just so many hexadecimal digits at the beginning of a text. -/
def hexNumberOf? (count : Nat) (t : List Char) : Option Nat :=
  if count ≤ t.length then hexNumber? (t.take count) else none

/-- The unit of an escape of one letter. -/
def letterEscape? : Char → Option Nat
  | '\'' => some 0x27
  | '"' => some 0x22
  | '\\' => some 0x5C
  | '0' => some 0
  | 'a' => some 7
  | 'b' => some 8
  | 't' => some 9
  | 'n' => some 10
  | 'v' => some 11
  | 'f' => some 12
  | 'r' => some 13
  | _ => none

/-- What an escape stands for, and how many characters it takes after its backslash: four digits
follow `u`, eight follow `U`, one to four `x`. -/
def escape? : List Char → Option (List Nat × Nat)
  | 'u' :: t => (hexNumberOf? 4 t).map fun n => ([n], 5)
  | 'U' :: t => ((hexNumberOf? 8 t).filter (· < 0x110000)).map fun n => (units n, 9)
  | 'x' :: t =>
    let ds := (t.take 4).takeWhile fun c => (Text.hexValue? c).isSome
    if ds = [] then none else (hexNumber? ds).map fun n => ([n], ds.length + 1)
  | e :: _ => (letterEscape? e).map fun n => ([n], 1)
  | [] => none

/-- The characters that end a line of the source. -/
def endsSourceLine (c : Char) : Bool :=
  let n := c.toNat
  n == 10 || n == 13 || n == 0x85 || n == 0x2028 || n == 0x2029

/-- The units up to the closing quote; so many characters in front belong to an escape. -/
def quotedUnits? : Nat → List Char → Option (List Nat)
  | _, [] => none
  | skip + 1, _ :: t => quotedUnits? skip t
  | 0, c :: t =>
    if c = '"' then some []
    else if c = '\\' then
      match escape? t with
      | some (us, count) => (quotedUnits? count t).map (us ++ ·)
      | none => none
    else if endsSourceLine c then none
    else (quotedUnits? 0 t).map (units c.toNat ++ ·)

/-- What the regular string literal stands for that a text begins with. -/
def literal? : List Char → Option (List Nat)
  | '"' :: t => quotedUnits? 0 t
  | _ => none

/-! ## What a literal takes -/

/-- A character that stands for itself in a literal. -/
def Literal (c : Char) : Prop := c ≠ '"' ∧ c ≠ '\\' ∧ endsSourceLine c = false

instance (c : Char) : Decidable (Literal c) :=
  inferInstanceAs (Decidable (c ≠ '"' ∧ c ≠ '\\' ∧ endsSourceLine c = false))

/-- Units read from a text between quotes: those of the text, if all of it stands for itself, and
fewer if not. -/
inductive Denotes (t : List Char) (us : List Nat) : Prop
  | itself (literal : ∀ c ∈ t, Literal c) (units : us = utf16 t)
  | escaped (shorter : us.length < (utf16 t).length)

theorem Denotes.length_le {t : List Char} {us : List Nat} (h : Denotes t us) :
    us.length ≤ (utf16 t).length := by
  cases h with
  | itself _ units => exact Nat.le_of_eq (congrArg List.length units)
  | escaped shorter => exact Nat.le_of_lt shorter

/-- An escape stands for no more units than it has characters after its backslash. -/
theorem escape?_length {t : List Char} {us : List Nat} {count : Nat}
    (h : escape? t = some (us, count)) : us.length ≤ count := by
  unfold escape? at h
  split at h
  · obtain ⟨n, -, heq⟩ := Option.map_eq_some_iff.mp h
    cases heq
    exact Nat.succ_le_succ (Nat.zero_le 4)
  · obtain ⟨n, -, heq⟩ := Option.map_eq_some_iff.mp h
    cases heq
    exact Nat.le_trans (length_units n).2 (by decide)
  · dsimp only at h
    split at h
    · cases h
    · obtain ⟨n, -, heq⟩ := Option.map_eq_some_iff.mp h
      cases heq
      exact Nat.succ_le_succ (Nat.zero_le _)
  · obtain ⟨n, -, heq⟩ := Option.map_eq_some_iff.mp h
    cases heq
    exact Nat.le_refl _
  · cases h

/-- What is read up to the closing quote, apart from the rest of an escape in front. -/
theorem quotedUnits?_denotes {t : List Char} {skip : Nat} {us : List Nat}
    (h : quotedUnits? skip t = some us) :
    ∃ s inside rest, t = s ++ (inside ++ '"' :: rest) ∧ s.length = skip ∧ Denotes inside us := by
  induction t generalizing skip us with
  | nil => cases skip <;> cases h
  | cons c t ih =>
    cases skip with
    | succ skip =>
      obtain ⟨s, inside, rest, rfl, hlength, hdenotes⟩ := ih h
      exact ⟨c :: s, inside, rest, rfl, congrArg Nat.succ hlength, hdenotes⟩
    | zero =>
      rw [quotedUnits?] at h
      split at h
      · next hquote =>
        cases h
        exact ⟨[], [], t, by rw [hquote]; rfl, rfl, .itself (by simp) rfl⟩
      next hquote =>
      split at h
      · split at h
        · next us₁ count hescape =>
          obtain ⟨us₂, hread, rfl⟩ := Option.map_eq_some_iff.mp h
          obtain ⟨s, inside, rest, rfl, hlength, hdenotes⟩ := ih hread
          refine ⟨[], c :: (s ++ inside), rest, by simp, rfl, .escaped ?_⟩
          -- An escape is longer than what it stands for, and this difference is never made up for.
          have hbound := escape?_length hescape
          have hinside := hdenotes.length_le
          have hescaped := length_le_utf16 s
          have hunits := (length_units c.toNat).1
          simp only [utf16_cons, utf16_append, List.length_append]
          omega
        · cases h
      next hslash =>
      split at h
      · cases h
      next hend =>
      obtain ⟨us₂, hread, rfl⟩ := Option.map_eq_some_iff.mp h
      obtain ⟨s, inside, rest, rfl, hlength, hdenotes⟩ := ih hread
      obtain rfl := List.length_eq_zero_iff.mp hlength
      refine ⟨[], c :: inside, rest, rfl, rfl, ?_⟩
      cases hdenotes with
      | itself literal units =>
        refine .itself (List.forall_mem_cons.mpr ⟨⟨hquote, hslash, ?_⟩, literal⟩) ?_
        · simpa using hend
        · rw [units, utf16_cons]
      | escaped shorter =>
        refine .escaped ?_
        rw [utf16_cons, List.length_append, List.length_append]
        omega

/-- The quotes of a literal come on top of what it stands for. -/
theorem literal?_length {t : List Char} {us : List Nat} (h : literal? t = some us) :
    us.length + 2 ≤ (utf16 t).length := by
  unfold literal? at h
  split at h
  · obtain ⟨s, inside, rest, rfl, hlength, hdenotes⟩ := quotedUnits?_denotes h
    have hinside := hdenotes.length_le
    have hquote := (length_units '"'.toNat).1
    simp only [utf16_cons, utf16_append, List.length_append]
    omega
  · cases h

/-! ## Texts between quotes -/

variable {t more : List Char}

theorem quotedUnits?_literal (h : ∀ c ∈ t, Literal c) (more : List Char) :
    quotedUnits? 0 (t ++ '"' :: more) = some (utf16 t) := by
  induction t with
  | nil => rfl
  | cons c t ih =>
    obtain ⟨⟨hquote, hslash, hend⟩, ht⟩ := List.forall_mem_cons.mp h
    rw [List.cons_append, quotedUnits?, if_neg hquote, if_neg hslash, hend, ih ht]
    rfl

/-- A text between quotes is read as itself exactly if all of its characters stand for themselves,
provided that no other quote could close the literal. -/
theorem literal?_quoted_iff (hmore : '"' ∉ more) :
    literal? ('"' :: (t ++ '"' :: more)) = some (utf16 t) ↔ ∀ c ∈ t, Literal c := by
  constructor
  · intro h
    obtain ⟨s, inside, rest, heq, hlength, hdenotes⟩ := quotedUnits?_denotes h
    obtain rfl := List.length_eq_zero_iff.mp hlength
    rw [List.nil_append] at heq
    rcases List.append_eq_append_iff.mp heq with ⟨a, hinside, hrest⟩ | ⟨a, ht, hrest⟩
    · -- The literal ends where it should, since there is no later quote.
      cases a with
      | nil =>
        rw [List.append_nil] at hinside
        subst hinside
        cases hdenotes with
        | itself literal _ => exact literal
        | escaped shorter => exact absurd shorter (Nat.lt_irrefl _)
      | cons c a =>
        have hlater : '"' ∈ more := by
          rw [(List.cons.inj hrest).2]
          exact List.mem_append_right _ List.mem_cons_self
        exact absurd hlater hmore
    · -- The literal ends too early, and what is missing is not made up for.
      have hunits := congrArg List.length (congrArg utf16 ht)
      have hle := hdenotes.length_le
      have hmissing := length_le_utf16 a
      rw [utf16_append, List.length_append] at hunits
      have hnil : a = [] := List.length_eq_zero_iff.mp (by omega)
      subst hnil
      rw [List.append_nil] at ht
      subst ht
      cases hdenotes with
      | itself literal _ => exact literal
      | escaped shorter => exact absurd shorter (Nat.lt_irrefl _)
  · exact fun h => quotedUnits?_literal h more

example : literal? "\"a\\nb\";".toList = some (utf16 "a\nb".toList) := by decide

/-- A text that is cut off before the closing quote is never read as itself. -/
theorem literal?_cut {inside : List Char} (h : inside <+: t) :
    literal? ('"' :: inside) ≠ some (utf16 t) := by
  intro hread
  obtain ⟨rest, rfl⟩ := h
  have hlength := literal?_length hread
  simp only [utf16_cons, utf16_append, List.length_append] at hlength
  have hquote : (units '"'.toNat).length = 1 := rfl
  omega

end Interop.Source
