import Interop.Proofs.Source.Standing

/-!
# Columns and nesting

A line is in its column if it begins four spaces to the right for each brace that is open above it
(`Aligned`).  Lines one below the other nest if each is in its column, at the depth that the lines
above leave (`Nests`).  This is kept when lines are put one below the other, moved to the right
together with their depth, or separated by empty lines, so whatever is built from nesting lines in
these ways nests.  A text of nesting lines that begins and ends outside all braces has balanced braces
(`Nests.balanced`) and the indentation that goes with them (`Nests.indented`).
-/

set_option autoImplicit false

namespace Interop.Source

open Text

/-! ## Braces -/

/-- The text has no braces. -/
def BraceFree (t : List Char) : Prop := '\x7b' ∉ t ∧ '\x7d' ∉ t

/-- How many more braces the text opens than it closes. -/
def braceDepth (t : List Char) : Int := t.count '\x7b' - t.count '\x7d'

/-- No brace is closed before it is opened, and in the end all are closed. -/
def Balanced (t : List Char) : Prop := (∀ front, front <+: t → 0 ≤ braceDepth front) ∧ braceDepth t = 0

/-- Where the lines of a depth begin. -/
def column (depth : Nat) : List Char := List.replicate (4 * depth) ' '

/-- Every line that holds something begins in the column of the braces that are open above it.  A
line that is a closing brace begins in the column of what it closes. -/
def Indented (t : List Char) : Prop :=
  ∀ above line below, splitOn '\n' t = above ++ line :: below → line ≠ [] →
    ∃ depth : Nat,
      (depth : Int) = braceDepth above.flatten - (if trim line = ['\x7d'] then 1 else 0)
      ∧ ∃ c rest, line = column depth ++ c :: rest ∧ isBlank c = false

theorem braceDepth_append (a b : List Char) : braceDepth (a ++ b) = braceDepth a + braceDepth b := by
  simp only [braceDepth, List.count_append]
  omega

theorem BraceFree.braceDepth_eq {t : List Char} (h : BraceFree t) : braceDepth t = 0 := by
  rw [braceDepth, List.count_eq_zero_of_not_mem h.1, List.count_eq_zero_of_not_mem h.2]
  rfl

theorem braceFree_column (depth : Nat) : BraceFree (column depth) := by
  constructor
  · intro h
    exact absurd (List.eq_of_mem_replicate h) (by decide)
  · intro h
    exact absurd (List.eq_of_mem_replicate h) (by decide)

theorem braceFree_append {a b : List Char} : BraceFree (a ++ b) ↔ BraceFree a ∧ BraceFree b := by
  simp only [BraceFree, List.mem_append, not_or]
  exact and_and_and_comm

theorem isBlank_of_mem_column {depth : Nat} {c : Char} (h : c ∈ column depth) :
    isBlank c = true := by
  rw [List.eq_of_mem_replicate h]
  rfl

/-! ## One line -/

/-- A line in its column, at a depth above it and a depth below it. -/
inductive Aligned : Nat → List Char → Nat → Prop
  | empty (depth : Nat) : Aligned depth [] depth
  | flat (depth : Nat) {c : Char} {rest : List Char} (visible : isBlank c = false)
      (braceFree : BraceFree (c :: rest)) : Aligned depth (column depth ++ c :: rest) depth
  | opening (depth : Nat) : Aligned depth (column depth ++ ['\x7b']) (depth + 1)
  | closing (depth : Nat) : Aligned (depth + 1) (column depth ++ ['\x7d']) depth

variable {a b : Nat} {line : List Char}

theorem shiftLine_column (depth : Nat) (c : Char) (rest : List Char) :
    shiftLine 4 (column depth ++ c :: rest) = column (depth + 1) ++ c :: rest := by
  rw [shiftLine_of_ne_nil (by simp), ← List.append_assoc, column, List.replicate_append_replicate]
  exact congrArg (fun n => List.replicate n ' ' ++ c :: rest) (by omega)

theorem Aligned.shift (h : Aligned a line b) : Aligned (a + 1) (shiftLine 4 line) (b + 1) := by
  cases h with
  | empty => exact .empty _
  | flat _ hc hb => rw [shiftLine_column]; exact .flat _ hc hb
  | opening => rw [shiftLine_column]; exact .opening _
  | closing => rw [shiftLine_column]; exact .closing _

theorem Aligned.eq_of_nil (h : Aligned a line b) (hl : line = []) : a = b := by
  cases h with
  | empty => rfl
  | flat => rfl
  | opening => exact absurd hl (by simp)
  | closing => exact absurd hl (by simp)

/-- The depth below a line is what its braces make of the depth above. -/
theorem Aligned.depth_eq (h : Aligned a line b) : (b : Int) = a + braceDepth line := by
  cases h with
  | empty => simp [braceDepth]
  | flat _ _ hb =>
    rw [braceDepth_append, (braceFree_column _).braceDepth_eq, hb.braceDepth_eq]
    omega
  | opening =>
    rw [braceDepth_append, (braceFree_column _).braceDepth_eq]
    exact Int.natCast_succ a
  | closing =>
    rw [braceDepth_append, (braceFree_column _).braceDepth_eq]
    show (b : Int) = (b + 1 : Nat) + (0 + -1)
    omega

/-- A line closes no more than is open above it. -/
theorem Aligned.count_le (h : Aligned a line b) : line.count '\x7d' ≤ a := by
  cases h with
  | empty => exact Nat.zero_le _
  | flat _ _ hb =>
    rw [List.count_append, List.count_eq_zero_of_not_mem (braceFree_column _).2,
      List.count_eq_zero_of_not_mem hb.2]
    exact Nat.zero_le _
  | opening =>
    rw [List.count_append, List.count_eq_zero_of_not_mem (braceFree_column _).2]
    exact Nat.zero_le _
  | closing =>
    rw [List.count_append, List.count_eq_zero_of_not_mem (braceFree_column _).2]
    exact Nat.succ_le_succ (Nat.zero_le _)

theorem Aligned.front_nonneg (h : Aligned a line b) {front : List Char} (hp : front <+: line) :
    0 ≤ a + braceDepth front := by
  have hclosed := hp.sublist.count_le '\x7d'
  have hle := h.count_le
  unfold braceDepth
  omega

theorem trim_closing (depth : Nat) : trim (column depth ++ ['\x7d']) = ['\x7d'] := by
  rw [trim, trimBy, List.dropWhile_append_of_pos fun c hc => isBlank_of_mem_column hc]
  rfl

theorem trim_ne_closing (h : '\x7d' ∉ line) : trim line ≠ ['\x7d'] := by
  intro ht
  have hmem : '\x7d' ∈ trim line := by simp [ht]
  exact h ((List.dropWhile_sublist _).subset (mem_of_mem_dropWhileEnd hmem))

/-- A line begins at its depth, and one that is a closing brace one column before it. -/
theorem Aligned.begins (h : Aligned a line b) (hl : line ≠ []) :
    ∃ depth : Nat, (depth : Int) = a - (if trim line = ['\x7d'] then 1 else 0)
      ∧ ∃ c rest, line = column depth ++ c :: rest ∧ isBlank c = false := by
  cases h with
  | empty => exact absurd rfl hl
  | flat _ hc hb =>
    have hclose := (braceFree_append.mpr ⟨braceFree_column a, hb⟩).2
    rw [if_neg (trim_ne_closing hclose)]
    exact ⟨a, by omega, _, _, rfl, hc⟩
  | opening =>
    have hclose : '\x7d' ∉ column a ++ ['\x7b'] := by simp [(braceFree_column a).2]
    rw [if_neg (trim_ne_closing hclose)]
    exact ⟨a, by omega, _, _, rfl, by decide⟩
  | closing =>
    rw [if_pos (trim_closing b)]
    exact ⟨b, by omega, _, _, rfl, by decide⟩

/-! ## Lines one below the other -/

/-- Lines that are in their columns, at a depth above them and a depth below them. -/
inductive Nests : Nat → List (List Char) → Nat → Prop
  | nil (depth : Nat) : Nests depth [] depth
  | cons {above within below : Nat} {line : List Char} {lines : List (List Char)}
      (head : Aligned above line within) (tail : Nests within lines below) :
      Nests above (line :: lines) below

namespace Nests

variable {c : Nat} {lines lines' : List (List Char)}

theorem single (h : Aligned a line b) : Nests a [line] b := .cons h (.nil b)

theorem empty (h : Nests a lines b) : Nests a ([] :: lines) b := .cons (.empty a) h

theorem append (h : Nests a lines b) (h' : Nests b lines' c) : Nests a (lines ++ lines') c := by
  induction h with
  | nil => exact h'
  | cons hline _ ih => exact .cons hline (ih h')

theorem of_append (h : Nests a (lines ++ lines') c) : ∃ b, Nests a lines b ∧ Nests b lines' c := by
  induction lines generalizing a with
  | nil => exact ⟨a, .nil a, h⟩
  | cons line lines ih =>
    cases h with
    | cons hline hrest =>
      obtain ⟨b, hlines, hlines'⟩ := ih hrest
      exact ⟨b, .cons hline hlines, hlines'⟩

theorem flatMap {α : Type} {xs : List α} {f : α → List (List Char)}
    (h : ∀ x ∈ xs, Nests a (f x) a) : Nests a (xs.flatMap f) a := by
  induction xs with
  | nil => exact .nil a
  | cons x xs ih =>
    rw [List.flatMap_cons]
    exact (h x List.mem_cons_self).append (ih fun y hy => h y (List.mem_cons_of_mem _ hy))

theorem shift (h : Nests a lines b) : Nests (a + 1) (lines.map (shiftLine 4)) (b + 1) := by
  induction h with
  | nil => exact .nil _
  | cons hline _ ih => exact .cons hline.shift ih

/-- Empty lines may come and go. -/
theorem settle (h : Nests a lines b) (above : Option (List Char)) (gap : Bool) :
    Nests a (settle above gap lines) b := by
  induction h generalizing above gap with
  | nil => exact .nil _
  | @cons _ _ _ line lines hline _ ih =>
    by_cases hl : line = []
    · subst hl
      rw [hline.eq_of_nil rfl]
      exact ih above true
    · rw [settle_cons _ _ hl]
      split
      · exact .cons (.empty _) (.cons hline (ih _ _))
      · exact .cons hline (ih _ _)

/-- The depth below lines is what their braces make of the depth above. -/
theorem depth_eq (h : Nests a lines b) : (b : Int) = a + braceDepth lines.flatten := by
  induction h with
  | nil => simp [braceDepth]
  | cons hline _ ih =>
    rw [List.flatten_cons, braceDepth_append, ih, hline.depth_eq]
    omega

theorem braceDepth_terminate (lines : List (List Char)) :
    braceDepth (terminate lines) = braceDepth lines.flatten := by
  induction lines with
  | nil => rfl
  | cons line lines ih =>
    have hsplit : terminate (line :: lines) = line ++ (['\n'] ++ terminate lines) := by
      simp [terminate]
    have hnewline : braceDepth ['\n'] = 0 := rfl
    rw [hsplit, List.flatten_cons, braceDepth_append, braceDepth_append, braceDepth_append, ih,
      hnewline, Int.zero_add]

/-- Nowhere inside lines that nest are more braces closed than are open there. -/
theorem front_nonneg (h : Nests a lines b) {front : List Char} (hp : front <+: terminate lines) :
    0 ≤ a + braceDepth front := by
  induction h generalizing front with
  | nil =>
    rw [List.prefix_nil.mp hp]
    simp [braceDepth]
  | @cons above within _ line lines hline _ ih =>
    have hsplit : terminate (line :: lines) = line ++ ['\n'] ++ terminate lines := by
      simp [terminate]
    have hwhole : (above : Int) + braceDepth (line ++ ['\n']) = within := by
      have hnewline : braceDepth ['\n'] = 0 := rfl
      rw [braceDepth_append, hline.depth_eq, hnewline]
      omega
    rw [hsplit] at hp
    rcases List.prefix_or_prefix_of_prefix hp (List.prefix_append (line ++ ['\n']) _) with hp' | hp'
    · rcases List.prefix_concat_iff.mp hp' with rfl | hp'
      · rw [hwhole]
        exact Int.natCast_nonneg within
      · exact hline.front_nonneg hp'
    · obtain ⟨back, rfl⟩ := hp'
      have hback := ih ((List.prefix_append_right_inj _).mp hp)
      rw [braceDepth_append, ← Int.add_assoc, hwhole]
      exact hback

/-- **Lines that nest have balanced braces.** -/
theorem balanced (h : Nests 0 lines 0) : Balanced (terminate lines) := by
  constructor
  · intro front hp
    simpa using h.front_nonneg hp
  · rw [braceDepth_terminate]
    simpa using h.depth_eq.symm

/-- **Lines that nest are indented.** -/
theorem indented (h : Nests 0 lines 0) (hn : ∀ line ∈ lines, '\n' ∉ line) :
    Indented (terminate lines) := by
  intro above line below hsplit hne
  rw [splitOn_terminate hn] at hsplit
  have hall : Nests 0 (lines ++ [[]]) 0 := h.append (Nests.nil 0).empty
  rw [hsplit] at hall
  obtain ⟨depth, habove, hbelow⟩ := hall.of_append
  have hdepth : (depth : Int) = braceDepth above.flatten := by simpa using habove.depth_eq
  cases hbelow with
  | cons hline _ =>
    rw [← hdepth]
    exact hline.begins hne

end Nests

end Interop.Source
