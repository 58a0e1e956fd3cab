import Interop.Proofs.Text.Blank
import Interop.Proofs.Text.Lines

/-!
# Tidying line by line

`tidy` decides about an empty line by the filled lines on either side of it.  So a stretch of lines
that begins and ends with filled lines of the right kind, a *block* (`Block`), is tidied by itself:
what stands above or below it makes no difference (`settle_blocks`).  Moving a block to the right
commutes with tidying it, since no rule looks at how far a line is indented
(`settle_map_shiftLine`).
-/

set_option autoImplicit false

namespace Interop.Source

open Text

/-! ## Ends of lines -/

/-- A line without the spaces and tabs at its end. -/
def trimLine (line : List Char) : List Char := dropWhileEnd isSpaceOrTab line

theorem trimmedLines_eq {t : List Char} (h : NewlinesOnly t) :
    trimmedLines t = (splitOn '\n' t).map trimLine := by
  rw [trimmedLines, unixNewlines_eq_self h.carriageReturn_notMem]
  rfl

theorem trimmedLines_append {a b : List Char} (ha : NewlinesOnly a) (hb : NewlinesOnly b) :
    trimmedLines (a ++ '\n' :: b) = trimmedLines a ++ trimmedLines b := by
  have hab : NewlinesOnly (a ++ '\n' :: b) := by simp [ha, hb]
  rw [trimmedLines_eq ha, trimmedLines_eq hb, trimmedLines_eq hab, splitOn_append,
    List.map_append]

theorem trimmedLines_singleLine {t : List Char} (h : SingleLine t) :
    trimmedLines t = [trimLine t] := by
  rw [trimmedLines_eq h.newlinesOnly, splitOn_of_notMem h.newline_notMem]
  rfl

/-! ## Moving lines to the right -/

/-- A line some columns further to the right; an empty line stays empty. -/
def shiftLine (columns : Nat) (line : List Char) : List Char :=
  if line = [] then [] else List.replicate columns ' ' ++ line

/-- A text with all its lines moved to the right. -/
def shift (columns : Nat) (t : List Char) : List Char :=
  joinLines ((splitOn '\n' t).map (shiftLine columns))

@[simp] theorem shiftLine_nil (columns : Nat) : shiftLine columns [] = [] := rfl

theorem shiftLine_of_ne_nil {columns : Nat} {line : List Char} (h : line ≠ []) :
    shiftLine columns line = List.replicate columns ' ' ++ line := if_neg h

@[simp] theorem shiftLine_eq_nil {columns : Nat} {line : List Char} :
    shiftLine columns line = [] ↔ line = [] := by
  unfold shiftLine
  split
  · simp [*]
  · simp [*]

theorem shiftLine_shiftLine (m n : Nat) (line : List Char) :
    shiftLine m (shiftLine n line) = shiftLine (m + n) line := by
  by_cases h : line = []
  · rw [h]; rfl
  · rw [shiftLine_of_ne_nil (by simpa using h), shiftLine_of_ne_nil h, shiftLine_of_ne_nil h,
      ← List.append_assoc, List.replicate_append_replicate]

theorem indentLine_eq : indentLine = shiftLine 4 := rfl

theorem trimLine_shift (columns : Nat) (line : List Char) :
    trimLine (List.replicate columns ' ' ++ line) = shiftLine columns (trimLine line) := by
  unfold trimLine shiftLine
  rw [dropWhileEnd_append]
  split
  · exact dropWhileEnd_of_all fun c hc => by rw [List.eq_of_mem_replicate hc]; rfl
  · rfl

theorem trimLine_shiftLine (columns : Nat) (line : List Char) :
    trimLine (shiftLine columns line) = shiftLine columns (trimLine line) := by
  by_cases h : line = []
  · rw [h]; rfl
  · rw [shiftLine_of_ne_nil h, trimLine_shift]

/-- Once the ends of lines are trimmed, indenting moves every line alike, the first one too. -/
theorem trimmedLines_indent {t : List Char} (h : NewlinesOnly t) :
    trimmedLines (indent t) = (trimmedLines t).map (shiftLine 4) ∧ NewlinesOnly (indent t) := by
  rw [indent, splitLines_newline h, trimmedLines_eq h]
  cases hs : splitOn '\n' t with
  | nil => exact absurd hs (splitOn_ne_nil _ t)
  | cons first others =>
    have hmem (line : List Char) (hl : line ∈ first :: others) : '\n' ∉ line ∧ NewlinesOnly line :=
      have hm := mem_splitOn (hs ▸ hl)
      ⟨hm.1, h.mono hm.2⟩
    have hothers (line : List Char) (hl : line ∈ others.map indentLine) :
        '\n' ∉ line ∧ NewlinesOnly line := by
      obtain ⟨l, hmeml, rfl⟩ := List.mem_map.mp hl
      obtain ⟨h₁, h₂⟩ := hmem l (List.mem_cons_of_mem _ hmeml)
      rw [indentLine_eq, shiftLine]
      split
      · exact ⟨by simp, NewlinesOnly.nil⟩
      · exact ⟨by simp [h₁], newlinesOnly_append.mpr ⟨by decide, h₂⟩⟩
    have hlines : ∀ line ∈ (indentation ++ first) :: others.map indentLine,
        '\n' ∉ line ∧ NewlinesOnly line := by
      intro line hl
      rcases List.mem_cons.mp hl with rfl | hl
      · obtain ⟨h₁, h₂⟩ := hmem first List.mem_cons_self
        exact ⟨by simp [indentation, h₁], newlinesOnly_append.mpr ⟨by decide, h₂⟩⟩
      · exact hothers line hl
    have hnew : NewlinesOnly (joinLines ((indentation ++ first) :: others.map indentLine)) :=
      NewlinesOnly.joinWith (by decide) fun line hl => (hlines line hl).2
    refine ⟨?_, hnew⟩
    rw [trimmedLines_eq hnew, joinLines, splitOn_joinWith (by simp) fun line hl => (hlines line hl).1]
    rw [List.map_cons, List.map_cons, List.map_cons, List.map_map, List.map_map, indentLine_eq]
    congr 1
    · exact trimLine_shift 4 first
    · exact List.map_congr_left fun line _ => trimLine_shiftLine 4 line

/-! ## Settling -/

theorem settle_cons (above : Option (List Char)) (gap : Bool) {line : List Char}
    (h : line ≠ []) (rest : List (List Char)) :
    settle above gap (line :: rest) =
      (if gap && above.any (!opensBrace ·) && !closesBrace line then [[]] else [])
        ++ line :: settle (some line) false rest := by
  cases line with
  | nil => exact absurd rfl h
  | cons c line =>
    simp only [settle]
    split <;> rfl

/-- What stands below a filled line is settled under that line alone. -/
theorem settle_append (above : Option (List Char)) (gap : Bool) (xs : List (List Char))
    {line : List Char} (h : line ≠ []) (ys : List (List Char)) :
    settle above gap (xs ++ line :: ys) =
      settle above gap (xs ++ [line]) ++ settle (some line) false ys := by
  induction xs generalizing above gap with
  | nil =>
    rw [List.nil_append, List.nil_append, settle_cons _ _ h, settle_cons _ _ h]
    simp [settle]
  | cons x xs ih =>
    cases x with
    | nil => exact ih above true
    | cons c cs =>
      rw [List.cons_append, List.cons_append, settle_cons _ _ (by simp),
        settle_cons _ _ (by simp), ih]
      simp

theorem opensBrace_shiftLine (columns : Nat) (line : List Char) :
    opensBrace (shiftLine columns line) = opensBrace line := by
  cases line with
  | nil => rfl
  | cons c cs => simp [shiftLine, opensBrace, List.getLast?_append, List.getLast?_cons]

theorem closesBrace_shiftLine (columns : Nat) (line : List Char) :
    closesBrace (shiftLine columns line) = closesBrace line := by
  by_cases h : line = []
  · rw [h]; rfl
  · have hspace : ∀ c ∈ List.replicate columns ' ', isSpaceOrTab c = true := by
      intro c hc
      rw [List.eq_of_mem_replicate hc]
      rfl
    rw [shiftLine_of_ne_nil h, closesBrace, closesBrace, List.dropWhile_append_of_pos hspace]

theorem settle_map_shiftLine (columns : Nat) (above : Option (List Char)) (gap : Bool)
    (lines : List (List Char)) :
    settle (above.map (shiftLine columns)) gap (lines.map (shiftLine columns)) =
      (settle above gap lines).map (shiftLine columns) := by
  induction lines generalizing above gap with
  | nil => rfl
  | cons line lines ih =>
    by_cases h : line = []
    · subst h
      exact ih above true
    · have hany : (above.map (shiftLine columns)).any (!opensBrace ·) =
          above.any (!opensBrace ·) := by
        cases above with
        | none => rfl
        | some a => simp [opensBrace_shiftLine]
      rw [List.map_cons, settle_cons _ _ (by simpa using h), settle_cons _ _ h, List.map_append,
        List.map_cons, hany, closesBrace_shiftLine, ← ih (some line) false]
      split <;> rfl

/-! ## Blocks -/

/-- The lines of a text as it is tidied by itself. -/
def tidyLines (t : List Char) : List (List Char) := settle none false (trimmedLines t)

theorem tidy_eq (t : List Char) : tidy t = joinLines (tidyLines t) ++ ['\n'] := rfl

theorem mem_settle {above : Option (List Char)} {gap : Bool} {lines : List (List Char)}
    {line : List Char} (h : line ∈ settle above gap lines) : line = [] ∨ line ∈ lines := by
  induction lines generalizing above gap with
  | nil => exact absurd h (by simp [settle])
  | cons x lines ih =>
    by_cases hx : x = []
    · subst hx
      exact (@ih above true h).imp_right (List.mem_cons_of_mem _)
    · rw [settle_cons _ _ hx, List.mem_append, List.mem_cons] at h
      rcases h with h | rfl | h
      · split at h
        · exact Or.inl (List.mem_singleton.mp h)
        · exact absurd h (by simp)
      · exact Or.inr List.mem_cons_self
      · exact (ih h).imp_right (List.mem_cons_of_mem _)

/-- No line of a tidied text has a newline in it. -/
theorem newline_notMem_tidyLines (t : List Char) : ∀ line ∈ tidyLines t, '\n' ∉ line := by
  intro line hl hn
  rcases mem_settle hl with rfl | hl
  · exact absurd hn (by simp)
  · obtain ⟨piece, hpiece, rfl⟩ := List.mem_map.mp hl
    exact (mem_splitOn hpiece).1 (mem_of_mem_dropWhileEnd hn)

/-- A text with a line that holds something has lines once it is tidied. -/
theorem tidyLines_ne_nil {t line : List Char} (h : line ∈ trimmedLines t) (hne : line ≠ []) :
    tidyLines t ≠ [] := by
  intro hnil
  have hkept : line ∈ filled (tidyLines t) := by
    rw [tidyLines, filled_settle, filled, List.mem_filter]
    exact ⟨h, by simpa using hne⟩
  rw [hnil] at hkept
  exact absurd hkept (by simp [filled])

/-- Lines that begin with a filled line which closes no brace and end with one that opens none. -/
structure Block (lines : List (List Char)) : Prop where
  first : ∃ line rest, lines = line :: rest ∧ line ≠ [] ∧ closesBrace line = false
  last : ∃ init line, lines = init ++ [line] ∧ line ≠ [] ∧ opensBrace line = false

theorem Block.map_shiftLine {lines : List (List Char)} (h : Block lines) (columns : Nat) :
    Block (lines.map (shiftLine columns)) := by
  obtain ⟨⟨first, rest, h₁, hf, hc⟩, init, last, h₂, hl, ho⟩ := h
  refine ⟨⟨shiftLine columns first, rest.map (shiftLine columns), by rw [h₁]; rfl, by simpa using hf,
    by rw [closesBrace_shiftLine]; exact hc⟩, init.map (shiftLine columns), shiftLine columns last,
    by rw [h₂]; simp, by simpa using hl, by rw [opensBrace_shiftLine]; exact ho⟩

/-- Under a line that opens no brace, one empty line stands before a block. -/
theorem settle_block {above : List Char} (ha : opensBrace above = false)
    {lines : List (List Char)} (h : Block lines) (ys : List (List Char)) :
    ∃ line, opensBrace line = false ∧
      settle (some above) true (lines ++ ys) =
        [] :: settle none false lines ++ settle (some line) false ys := by
  obtain ⟨⟨first, rest, h₁, hf, hc⟩, init, last, h₂, hl, ho⟩ := h
  have hstart : settle (some above) true lines = [] :: settle none false lines := by
    rw [h₁, settle_cons _ _ hf, settle_cons _ _ hf]
    simp [ha, hc]
  refine ⟨last, ho, ?_⟩
  rw [← hstart, h₂, List.append_assoc, List.singleton_append, settle_append _ _ _ hl]

/-- **Blocks are tidied one by one.**  Between a line that opens no brace and whatever follows,
blocks with empty lines before them come out as each does by itself, with one empty line before
each. -/
theorem settle_blocks {above : List Char} (ha : opensBrace above = false)
    {blocks : List (List (List Char))} (h : ∀ lines ∈ blocks, Block lines)
    (ys : List (List Char)) :
    ∃ line, opensBrace line = false ∧
      settle (some above) false (blocks.flatMap ([] :: ·) ++ ys) =
        blocks.flatMap (fun lines => [] :: settle none false lines)
          ++ settle (some line) false ys := by
  induction blocks generalizing above with
  | nil => exact ⟨above, ha, rfl⟩
  | cons lines blocks ih =>
    obtain ⟨line, hline, hhead⟩ := settle_block ha (h lines List.mem_cons_self)
      (blocks.flatMap ([] :: ·) ++ ys)
    obtain ⟨last, hlast, htail⟩ := ih hline fun l hl => h l (List.mem_cons_of_mem _ hl)
    refine ⟨last, hlast, ?_⟩
    rw [List.flatMap_cons, List.cons_append, List.cons_append, List.append_assoc, settle, hhead,
      htail]
    simp

end Interop.Source
