import Interop.Proofs.Source.Tidied
import Mathlib

/-!
# Tidying in passes

What `tidy` says of lines can be done by replacements in the text, one after another: spaces and
tabs before newlines are dropped, then newlines beyond the second of a gap, then the empty lines
under an opening brace, then those above a closing brace, and last the newlines around it all
(`inPasses`).  No pass undoes what an earlier one has done, so the two are the same
(`tidy_eq_inPasses`).

A text of trimmed lines is a list of filled lines with a number of newlines under each (`Row`).  No
pass after the first touches the lines, so each of them is a change of these numbers.
-/

set_option autoImplicit false

namespace Interop.Source

open Text

/-! ## The passes -/

/-- The text without the spaces and tabs that stand before a newline or at the end. -/
def dropLineEnds : List Char → List Char
  | [] => []
  | c :: rest =>
    let below := dropLineEnds rest
    if isSpaceOrTab c && below.head?.all (· == '\n') then below else c :: below

/-- The text with two newlines in place of three and more. -/
def shortenGaps : List Char → List Char
  | [] => []
  | c :: rest =>
    let below := shortenGaps rest
    if c == '\n' && below.take 2 == ['\n', '\n'] then below else c :: below

/-- The text with one newline at its beginning in place of several. -/
def closeGap : List Char → List Char
  | '\n' :: rest => '\n' :: rest.dropWhile (· == '\n')
  | t => t

/-- The text with one newline after an opening brace in place of several. -/
def closeBelowOpening : List Char → List Char
  | [] => []
  | c :: rest =>
    let below := closeBelowOpening rest
    c :: if c == '\x7b' then closeGap below else below

/-- The text with one newline in place of several where a closing brace comes next, spaces and tabs
apart. -/
def closeAboveClosing : List Char → List Char
  | [] => []
  | c :: rest =>
    let below := closeAboveClosing rest
    if c == '\n' && below.head? == some '\n' && closesBrace (below.dropWhile (· == '\n')) then below
    else c :: below

/-- The text tidied by one replacement after another. -/
def inPasses (t : List Char) : List Char :=
  trimBy (· == '\n') (closeAboveClosing (closeBelowOpening (shortenGaps
    (dropLineEnds (unixNewlines t))))) ++ ['\n']

/-! ## Ends of lines -/

/-- Of lines put together, what comes first is a newline, or nothing, only if the first line is
empty. -/
theorem head?_joinLines {line : List Char} (h : '\n' ∉ line) (lines : List (List Char)) :
    (joinLines (line :: lines)).head?.all (· == '\n') = line.isEmpty := by
  cases line with
  | nil => cases lines <;> rfl
  | cons c line =>
    have hc : c ≠ '\n' := fun heq => h (heq ▸ List.mem_cons_self)
    cases lines <;> simp [joinLines, joinWith, hc]

theorem cons_joinLines (c : Char) (line : List Char) (lines : List (List Char)) :
    c :: joinLines (line :: lines) = joinLines ((c :: line) :: lines) := by
  cases lines <;> rfl

theorem dropLineEnds_eq (t : List Char) :
    dropLineEnds t = joinLines ((splitOn '\n' t).map trimLine) := by
  induction t with
  | nil => rfl
  | cons c t ih =>
    rw [dropLineEnds, splitOn_cons]
    cases hs : splitOn '\n' t with
    | nil => exact absurd hs (splitOn_ne_nil _ t)
    | cons piece pieces =>
      rw [hs] at ih
      by_cases hc : c = '\n'
      · have hnewline : isSpaceOrTab '\n' = false := rfl
        rw [hc, if_pos rfl, ih, hnewline]
        rfl
      · have hpiece : '\n' ∉ trimLine piece := fun hmem =>
          (mem_splitOn (hs ▸ List.mem_cons_self)).1 (mem_of_mem_dropWhileEnd hmem)
        have htrim : trimLine (c :: piece) =
            if trimLine piece = [] then (if isSpaceOrTab c then [] else [c])
            else c :: trimLine piece := dropWhileEnd_cons c piece
        rw [if_neg hc, List.modifyHead_cons, List.map_cons, htrim, ih, List.map_cons,
          head?_joinLines hpiece]
        by_cases hleft : trimLine piece = []
        · rw [if_pos hleft, hleft]
          cases isSpaceOrTab c with
          | true => rfl
          | false => exact cons_joinLines c [] _
        · rw [if_neg hleft, List.isEmpty_eq_false_iff.mpr hleft, Bool.and_false, ← cons_joinLines]
          rfl

/-! ## Rows -/

/-- A filled line, with the number of newlines that stand under it. -/
structure Row where
  line : List Char
  below : Nat
  newline_notMem : '\n' ∉ line
  visible : ∃ c ∈ line, isSpaceOrTab c = false

/-- So many newlines. -/
def newlines (n : Nat) : List Char := List.replicate n '\n'

def rowsText (rows : List Row) : List Char := rows.flatMap fun r => r.line ++ newlines r.below

theorem Row.exists_cons (r : Row) : ∃ c rest, r.line = c :: rest ∧ c ≠ '\n' := by
  obtain ⟨x, hx, -⟩ := r.visible
  obtain ⟨c, rest, hline⟩ := List.exists_cons_of_ne_nil (List.ne_nil_of_mem hx)
  refine ⟨c, rest, hline, ?_⟩
  rintro rfl
  exact r.newline_notMem (hline ▸ List.mem_cons_self)

theorem rowsText_cons (r : Row) (rows : List Row) :
    rowsText (r :: rows) = r.line ++ (newlines r.below ++ rowsText rows) := by
  rw [rowsText, List.flatMap_cons, List.append_assoc]
  rfl

/-- A text of rows begins with no newline. -/
theorem head?_rowsText (rows : List Row) : (rowsText rows).head? ≠ some '\n' := by
  cases rows with
  | nil => simp [rowsText]
  | cons r rows =>
    obtain ⟨c, rest, hline, hc⟩ := r.exists_cons
    rw [rowsText_cons, hline]
    simpa using hc

/-- The first line of the rows says whether a closing brace comes next. -/
theorem closesBrace_rowsText (r : Row) (rows : List Row) :
    closesBrace (rowsText (r :: rows)) = closesBrace r.line := by
  obtain ⟨c, hc, hvisible⟩ := r.visible
  have hne : r.line.dropWhile isSpaceOrTab ≠ [] := by
    intro hnil
    have hall := List.dropWhile_eq_nil_iff.mp hnil c hc
    rw [hvisible] at hall
    exact absurd hall (by simp)
  rw [rowsText_cons, closesBrace, closesBrace, List.dropWhile_append,
    List.isEmpty_eq_false_iff.mpr hne, if_neg (by simp), List.head?_append_of_ne_nil _ hne]

theorem dropWhile_newlines {n : Nat} {t : List Char} (h : t.head? ≠ some '\n') :
    (newlines n ++ t).dropWhile (· == '\n') = t := by
  rw [newlines, List.dropWhile_append_of_pos (by simp)]
  cases t with
  | nil => rfl
  | cons c t => exact List.dropWhile_cons_of_neg (by simpa using h)

/-! ## Passes on rows -/

/-- A row with at most so many newlines under it. -/
def Row.atMost (r : Row) (n : Nat) : Row := { r with below := min r.below n }

theorem shortenGaps_append {line : List Char} (h : '\n' ∉ line) (t : List Char) :
    shortenGaps (line ++ t) = line ++ shortenGaps t := by
  induction line with
  | nil => rfl
  | cons c line ih =>
    simp only [List.mem_cons, not_or] at h
    simp [shortenGaps, ih h.2, Ne.symm h.1]

theorem shortenGaps_newlines {t : List Char} (h : (shortenGaps t).head? ≠ some '\n') (n : Nat) :
    shortenGaps (newlines n ++ t) = newlines (min n 2) ++ shortenGaps t := by
  induction n with
  | zero => rfl
  | succ n ih =>
    have hstep : shortenGaps (newlines (n + 1) ++ t) =
        if (shortenGaps (newlines n ++ t)).take 2 == ['\n', '\n'] then shortenGaps (newlines n ++ t)
        else '\n' :: shortenGaps (newlines n ++ t) := by
      simp [newlines, List.replicate_succ, shortenGaps]
    rw [hstep, ih]
    cases hs : shortenGaps t with
    | nil => rcases n with _ | _ | n <;> simp [newlines]
    | cons c s =>
      have hc : c ≠ '\n' := by simpa [hs] using h
      rcases n with _ | _ | n <;> simp [newlines, hc]

theorem shortenGaps_rows (n : Nat) (rows : List Row) :
    shortenGaps (newlines n ++ rowsText rows) =
      newlines (min n 2) ++ rowsText (rows.map (·.atMost 2)) := by
  induction rows generalizing n with
  | nil => exact shortenGaps_newlines (by simp [rowsText, shortenGaps]) n
  | cons r rows ih =>
    have hrow : shortenGaps (rowsText (r :: rows)) = rowsText ((r :: rows).map (·.atMost 2)) := by
      rw [rowsText_cons, shortenGaps_append r.newline_notMem, ih, List.map_cons, rowsText_cons]
      rfl
    rw [shortenGaps_newlines, hrow]
    rw [hrow]
    exact head?_rowsText _

/-- A row as it is left by the pass for opening braces. -/
def Row.belowOpening (r : Row) : Row :=
  { r with below := if opensBrace r.line then min r.below 1 else r.below }

theorem closeGap_eq_self {t : List Char} (h : t.head? ≠ some '\n') : closeGap t = t := by
  unfold closeGap
  split
  · simp at h
  · rfl

theorem closeGap_newlines {t : List Char} (h : t.head? ≠ some '\n') (n : Nat) :
    closeGap (newlines n ++ t) = newlines (min n 1) ++ t := by
  cases n with
  | zero => exact closeGap_eq_self h
  | succ n =>
    have hdrop := @dropWhile_newlines n t h
    simp [newlines, List.replicate_succ, closeGap] at hdrop ⊢
    exact hdrop

theorem closeBelowOpening_newlines (n : Nat) (t : List Char) :
    closeBelowOpening (newlines n ++ t) = newlines n ++ closeBelowOpening t := by
  induction n with
  | zero => rfl
  | succ n ih => simpa [newlines, List.replicate_succ, closeBelowOpening] using ih

theorem closeBelowOpening_append {line : List Char} (h : '\n' ∉ line) (hne : line ≠ [])
    (t : List Char) :
    closeBelowOpening (line ++ t) = line ++
      if opensBrace line then closeGap (closeBelowOpening t) else closeBelowOpening t := by
  induction line with
  | nil => exact absurd rfl hne
  | cons c line ih =>
    simp only [List.mem_cons, not_or] at h
    cases line with
    | nil => simp [closeBelowOpening, opensBrace]
    | cons d line =>
      have hd : (d :: line ++ if opensBrace (d :: line) then closeGap (closeBelowOpening t)
          else closeBelowOpening t).head? ≠ some '\n' := by
        have hne : d ≠ '\n' := fun heq => h.2 (heq ▸ List.mem_cons_self)
        simpa using hne
      have hlast : opensBrace (c :: d :: line) = opensBrace (d :: line) := by
        simp [opensBrace]
      rw [List.cons_append, closeBelowOpening, ih h.2 (by simp), hlast, closeGap_eq_self hd]
      simp

theorem closeBelowOpening_rows (n : Nat) (rows : List Row) :
    closeBelowOpening (newlines n ++ rowsText rows) =
      newlines n ++ rowsText (rows.map Row.belowOpening) := by
  rw [closeBelowOpening_newlines]
  congr 1
  induction rows with
  | nil => rfl
  | cons r rows ih =>
    obtain ⟨c, hc, -⟩ := r.visible
    rw [rowsText_cons, closeBelowOpening_append r.newline_notMem (List.ne_nil_of_mem hc),
      closeBelowOpening_newlines, ih, closeGap_newlines (head?_rowsText _), List.map_cons,
      rowsText_cons, Row.belowOpening]
    split
    · rfl
    · rfl

/-- So many newlines above some rows, as they are left by the pass for closing braces. -/
def aboveClosing (n : Nat) : List Row → Nat
  | [] => n
  | r :: _ => if closesBrace r.line then min n 1 else n

def closedRows : List Row → List Row
  | [] => []
  | r :: rows => { r with below := aboveClosing r.below rows } :: closedRows rows

theorem closeAboveClosing_append {line : List Char} (h : '\n' ∉ line) (t : List Char) :
    closeAboveClosing (line ++ t) = line ++ closeAboveClosing t := by
  induction line with
  | nil => rfl
  | cons c line ih =>
    simp only [List.mem_cons, not_or] at h
    simp [closeAboveClosing, ih h.2, Ne.symm h.1]

theorem closeAboveClosing_newlines {t : List Char}
    (h : (closeAboveClosing t).head? ≠ some '\n') (n : Nat) :
    closeAboveClosing (newlines n ++ t) =
      newlines (if closesBrace (closeAboveClosing t) then min n 1 else n)
        ++ closeAboveClosing t := by
  induction n with
  | zero => simp [newlines]
  | succ n ih =>
    have hstep : closeAboveClosing (newlines (n + 1) ++ t) =
        if (closeAboveClosing (newlines n ++ t)).head? == some '\n'
          && closesBrace ((closeAboveClosing (newlines n ++ t)).dropWhile (· == '\n'))
        then closeAboveClosing (newlines n ++ t)
        else '\n' :: closeAboveClosing (newlines n ++ t) := by
      simp [newlines, List.replicate_succ, closeAboveClosing]
    rw [hstep, ih, dropWhile_newlines h]
    cases hclose : closesBrace (closeAboveClosing t) with
    | false => simp [newlines, List.replicate_succ]
    | true =>
      cases n with
      | zero => simp [newlines, h]
      | succ n => simp [newlines]

theorem closeAboveClosing_rows (n : Nat) (rows : List Row) :
    closeAboveClosing (newlines n ++ rowsText rows) =
      newlines (aboveClosing n rows) ++ rowsText (closedRows rows) := by
  induction rows generalizing n with
  | nil =>
    have hnone : closesBrace [] = false := rfl
    rw [closeAboveClosing_newlines (by simp [rowsText, closeAboveClosing])]
    simp [rowsText, closeAboveClosing, aboveClosing, closedRows, hnone]
  | cons r rows ih =>
    have hrow : closeAboveClosing (rowsText (r :: rows)) = rowsText (closedRows (r :: rows)) := by
      rw [rowsText_cons, closeAboveClosing_append r.newline_notMem, ih, closedRows, rowsText_cons]
    rw [closeAboveClosing_newlines, hrow, aboveClosing]
    · rw [closedRows, closesBrace_rowsText]
    · rw [hrow]
      exact head?_rowsText _

/-! ## Settled rows -/

/-- The lines of rows, with an empty line before each that has a gap of the right kind above it. -/
def settledRows (above : Option (List Char)) (n : Nat) : List Row → List (List Char)
  | [] => []
  | r :: rows =>
    (if 2 ≤ n && above.any (!opensBrace ·) && !closesBrace r.line then [[]] else [])
      ++ r.line :: settledRows (some r.line) r.below rows

/-- Rows with a newline under each that another one follows. -/
def Parted (rows : List Row) : Prop := rows.IsChain fun r _ => 0 < r.below

/-- The rows that lines are made of, and the number of newlines above the first row, when there is
one newline above each line. -/
structure RowsOf (lines : List (List Char)) (n : Nat) (rows : List Row) : Prop where
  text : lines.flatMap ('\n' :: ·) = newlines n ++ rowsText rows
  above : rows ≠ [] → 0 < n
  parted : Parted rows
  settle (above : Option (List Char)) (gap : Bool) :
    settle above gap lines = settledRows above (n + gap.toNat) rows

/-- Beyond the second, newlines do not matter to what is settled. -/
theorem settledRows_succ (above : Option (List Char)) {n : Nat} {rows : List Row}
    (h : rows ≠ [] → 0 < n) : settledRows above (n + 2) rows = settledRows above (n + 1) rows := by
  cases rows with
  | nil => rfl
  | cons r rows =>
    have hpos := h (List.cons_ne_nil r rows)
    have hmore : decide (2 ≤ n + 2) = decide (2 ≤ n + 1) := by simp; omega
    rw [settledRows, settledRows, hmore]

theorem exists_visible {line : List Char} (hne : line ≠ []) (htrim : trimLine line = line) :
    ∃ c ∈ line, isSpaceOrTab c = false := by
  by_contra hnone
  have hall : ∀ c ∈ line, isSpaceOrTab c = true := by
    intro c hc
    by_contra hvisible
    exact hnone ⟨c, hc, by simpa using hvisible⟩
  exact hne (htrim ▸ dropWhileEnd_of_all hall)

/-- Trimmed lines are made of rows. -/
theorem exists_rowsOf {lines : List (List Char)}
    (h : ∀ line ∈ lines, '\n' ∉ line ∧ trimLine line = line) : ∃ n rows, RowsOf lines n rows := by
  induction lines with
  | nil => exact ⟨0, [], rfl, fun h => absurd rfl h, .nil, fun _ _ => rfl⟩
  | cons line lines ih =>
    obtain ⟨⟨hnewline, htrim⟩, hlines⟩ := List.forall_mem_cons.mp h
    obtain ⟨n, rows, hrows⟩ := ih hlines
    by_cases hne : line = []
    · -- An empty line is one more newline above the first row.
      subst hne
      refine ⟨n + 1, rows, ?_, fun _ => Nat.succ_pos n, hrows.parted, fun above gap => ?_⟩
      · rw [List.flatMap_cons, hrows.text]
        rfl
      · show settle above true lines = _
        rw [hrows.settle]
        cases gap with
        | false => rfl
        | true => exact (settledRows_succ above hrows.above).symm
    · have hvisible := exists_visible hne htrim
      refine ⟨1, ⟨line, n, hnewline, hvisible⟩ :: rows, ?_, fun _ => Nat.one_pos, ?_, ?_⟩
      · rw [List.flatMap_cons, hrows.text, rowsText_cons]
        simp [newlines]
      · refine List.isChain_cons.mpr ⟨fun r hr => hrows.above ?_, hrows.parted⟩
        rintro rfl
        simp at hr
      · intro above gap
        rw [settle_cons _ _ hne, hrows.settle]
        cases gap
        · rfl
        · rfl

theorem newline_joinLines {lines : List (List Char)} (h : lines ≠ []) :
    '\n' :: joinLines lines = lines.flatMap ('\n' :: ·) := by
  induction lines with
  | nil => exact absurd rfl h
  | cons line lines ih =>
    cases lines with
    | nil => simp [joinLines, joinWith]
    | cons next lines =>
      rw [List.flatMap_cons, ← ih (by simp), joinLines, joinWith_cons _ _ (by simp)]
      simp [joinLines]

/-- The rows after all passes. -/
def tidiedRows (rows : List Row) : List Row :=
  closedRows ((rows.map (·.atMost 2)).map Row.belowOpening)

theorem tidiedRows_cons (r : Row) (rows : List Row) :
    ∃ k, rowsText (tidiedRows (r :: rows)) = r.line ++ (newlines k ++ rowsText (tidiedRows rows))
      ∧ ∀ next rest, rows = next :: rest → 0 < r.below →
        k = if 2 ≤ r.below && !opensBrace r.line && !closesBrace next.line then 2 else 1 := by
  refine ⟨aboveClosing (r.atMost 2).belowOpening.below
    ((rows.map (·.atMost 2)).map Row.belowOpening), ?_, ?_⟩
  · exact rowsText_cons _ _
  rintro next rest rfl hbelow
  have hopening : (r.atMost 2).belowOpening.below =
      if opensBrace r.line then min (min r.below 2) 1 else min r.below 2 := rfl
  have hnext : (next.atMost 2).belowOpening.line = next.line := rfl
  rw [List.map_cons, List.map_cons, aboveClosing, hopening, hnext]
  cases opensBrace r.line with
  | true => cases closesBrace next.line <;> simp <;> omega
  | false =>
    cases closesBrace next.line with
    | true => simp; omega
    | false =>
      simp only [Bool.false_eq_true, if_false, Bool.not_false, Bool.and_true, decide_eq_true_eq]
      split
      · omega
      · omega

theorem dropWhileEnd_line (r : Row) : dropWhileEnd (· == '\n') r.line = r.line := by
  obtain ⟨c, hc, -⟩ := r.visible
  obtain ⟨init, last, hlast⟩ : ∃ init last, r.line = init ++ [last] :=
    ⟨_, _, (List.dropLast_concat_getLast (List.ne_nil_of_mem hc)).symm⟩
  rw [hlast]
  refine dropWhileEnd_concat (beq_eq_false_iff_ne.mpr ?_)
  rintro rfl
  exact r.newline_notMem (by simp [hlast])

theorem dropWhileEnd_tidiedRows (r : Row) {rows : List Row} (h : Parted (r :: rows)) :
    dropWhileEnd (· == '\n') (rowsText (tidiedRows (r :: rows))) =
      joinLines (r.line :: settledRows (some r.line) r.below rows) := by
  induction rows generalizing r with
  | nil =>
    obtain ⟨k, htext, -⟩ := tidiedRows_cons r []
    have hend : dropWhileEnd (· == '\n') (newlines k ++ rowsText (tidiedRows [])) = [] :=
      dropWhileEnd_of_all (by simp [newlines, tidiedRows, closedRows, rowsText])
    rw [htext, dropWhileEnd_append, if_pos hend, dropWhileEnd_line]
    rfl
  | cons next rows ih =>
    obtain ⟨hbelow, hrest⟩ := List.isChain_cons_cons.mp h
    obtain ⟨k, htext, hk⟩ := tidiedRows_cons r (next :: rows)
    have hlines : joinLines (next.line :: settledRows (some next.line) next.below rows) ≠ [] := by
      obtain ⟨c, rest, hline, -⟩ := next.exists_cons
      rw [hline, joinLines]
      cases settledRows (some (c :: rest)) next.below rows <;> simp [joinWith]
    -- The rest does not vanish, so nothing that stands above it is dropped.
    have hkept : dropWhileEnd (· == '\n') (newlines k ++ rowsText (tidiedRows (next :: rows))) =
        newlines k ++ joinLines (next.line :: settledRows (some next.line) next.below rows) := by
      rw [dropWhileEnd_append, ih next hrest, if_neg hlines]
    rw [htext, dropWhileEnd_append, hkept, if_neg (by simp [hlines]), hk next rows rfl hbelow,
      settledRows]
    simp only [Option.any_some]
    split
    · simp [joinLines, joinWith, newlines]
    · simp [joinLines, joinWith, newlines]

/-- **The passes tidy a text.**  One replacement after another comes to the same as settling the
lines. -/
theorem tidy_eq_inPasses (t : List Char) : tidy t = inPasses t := by
  have htrimmed : ∀ line ∈ trimmedLines t, '\n' ∉ line ∧ trimLine line = line := by
    intro line hline
    obtain ⟨piece, hpiece, rfl⟩ := List.mem_map.mp hline
    refine ⟨fun hmem => ?_, trimLine_trimLine piece⟩
    exact (mem_splitOn hpiece).1 (mem_of_mem_dropWhileEnd hmem)
  have hnil : trimmedLines t ≠ [] := by simp [trimmedLines, splitOn_ne_nil]
  obtain ⟨n, rows, hrows⟩ := exists_rowsOf htrimmed
  have htext := hrows.text
  rw [← newline_joinLines hnil] at htext
  cases n with
  | zero => exact absurd (congrArg List.head? htext).symm (head?_rowsText rows)
  | succ n =>
    obtain ⟨-, hjoin⟩ := List.cons.inj htext
    have hdrop : dropLineEnds (unixNewlines t) = newlines n ++ rowsText rows :=
      (dropLineEnds_eq _).trans hjoin
    rw [inPasses, hdrop, shortenGaps_rows, closeBelowOpening_rows, closeAboveClosing_rows, trimBy,
      dropWhile_newlines (head?_rowsText _), tidy, hrows.settle]
    cases rows with
    | nil => rfl
    | cons r rows =>
      have hfirst : settledRows none (n + 1 + false.toNat) (r :: rows) =
          r.line :: settledRows (some r.line) r.below rows := by simp [settledRows]
      rw [hfirst, ← dropWhileEnd_tidiedRows r hrows.parted]
      rfl

end Interop.Source
