import Interop.Proofs.Source.Settle
import Mathlib

/-!
# The form of a tidied text

Tidying once is enough.  Whatever the text, the lines that are left satisfy `Settled`, and settling
again changes nothing on such lines; so a tidied text has the form `Tidied` and stays as it is
(`tidy_canonical`).  The one exception is a carriage return that lost what stood between it and the
end of its line: it then makes a pair with the newline, and the next time the pair becomes one
newline.

No line that holds something is lost, merged or moved on the way (`filled_lines_kept`).  Tidying by
replacements in the text comes to the same (`tidy_eq_inPasses`).
-/

set_option autoImplicit false

namespace Interop.Source

open Text

/-! ## Settled lines -/

/-- The lines that settling leaves under a given one: a line is filled, or it is the only empty line
between one that opens no brace and one that closes none. -/
inductive Settled : Option (List Char) → List (List Char) → Prop
  | nil {above : Option (List Char)} : Settled above []
  | line {above : Option (List Char)} {line : List Char} {rest : List (List Char)}
      (hne : line ≠ []) (hrest : Settled (some line) rest) : Settled above (line :: rest)
  | gap {above line : List Char} {rest : List (List Char)} (hopens : opensBrace above = false)
      (hne : line ≠ []) (hcloses : closesBrace line = false)
      (hrest : Settled (some line) rest) : Settled (some above) ([] :: line :: rest)

theorem settle_settled (above : Option (List Char)) (gap : Bool) (lines : List (List Char)) :
    Settled above (settle above gap lines) := by
  induction lines generalizing above gap with
  | nil => exact .nil
  | cons line lines ih =>
    by_cases hne : line = []
    · subst hne
      exact ih above true
    · have hrest := ih (some line) false
      rw [settle_cons _ _ hne]
      split
      · next hgap =>
        simp only [Bool.and_eq_true, Bool.not_eq_true'] at hgap
        obtain ⟨⟨-, habove⟩, hcloses⟩ := hgap
        cases above with
        | none => simp at habove
        | some above => exact .gap (by simpa using habove) hne hcloses hrest
      · exact .line hne hrest

/-- Settled lines stay as they are. -/
theorem Settled.settle_eq {above : Option (List Char)} {lines : List (List Char)}
    (h : Settled above lines) : settle above false lines = lines := by
  induction h with
  | nil => rfl
  | line hne _ ih => rw [settle_cons _ _ hne, ih]; rfl
  | gap hopens hne hcloses _ ih =>
    rw [settle, settle_cons _ _ hne, ih]
    simp [hopens, hcloses]

/-- An empty line at the end makes no difference. -/
theorem settle_concat_nil (above : Option (List Char)) (gap : Bool) (lines : List (List Char)) :
    settle above gap (lines ++ [[]]) = settle above gap lines := by
  induction lines generalizing above gap with
  | nil => rfl
  | cons line lines ih =>
    by_cases hne : line = []
    · subst hne
      exact ih above true
    · rw [List.cons_append, settle_cons _ _ hne, settle_cons _ _ hne, ih]

/-- What stands around an empty line. -/
theorem Settled.around {above : Option (List Char)} {front back : List (List Char)}
    (h : Settled above (front ++ [] :: back)) :
    (∃ front' line, above.toList ++ front = front' ++ [line] ∧ opensBrace line = false)
      ∧ ∃ line back', back = line :: back' ∧ line ≠ [] ∧ closesBrace line = false := by
  generalize hlines : front ++ [] :: back = lines at h
  induction h generalizing front with
  | nil => exact absurd hlines (by simp)
  | @line above next rest hne _ ih =>
    cases front with
    | nil => exact absurd (List.cons.inj hlines).1.symm hne
    | cons x front =>
      obtain ⟨rfl, htail⟩ := List.cons.inj hlines
      obtain ⟨⟨front', line, hfront, hopens⟩, hback⟩ := ih htail
      refine ⟨⟨above.toList ++ front', line, ?_, hopens⟩, hback⟩
      rw [List.append_assoc, ← hfront]
      rfl
  | @gap above next rest hopens hne hcloses _ ih =>
    cases front with
    | nil =>
      obtain rfl := (List.cons.inj hlines).2
      exact ⟨⟨[], above, rfl, hopens⟩, next, rest, rfl, hne, hcloses⟩
    | cons x front =>
      obtain ⟨rfl, htail⟩ := List.cons.inj hlines
      cases front with
      | nil => exact absurd (List.cons.inj htail).1.symm hne
      | cons y front =>
        obtain ⟨rfl, hrest⟩ := List.cons.inj htail
        obtain ⟨⟨front', line, hfront, hopens⟩, hback⟩ := ih hrest
        refine ⟨⟨above :: [] :: front', line, ?_, hopens⟩, hback⟩
        simpa using hfront

/-- The first line is filled. -/
theorem Settled.head_ne_nil {line : List Char} {rest : List (List Char)}
    (h : Settled none (line :: rest)) : line ≠ [] := by
  cases h with
  | line hne _ => exact hne

theorem opensBrace_concat (line : List Char) : opensBrace (line ++ ['\x7b']) = true := by
  simp [opensBrace]

theorem closesBrace_append {blanks : List Char} (h : ∀ c ∈ blanks, isSpaceOrTab c = true)
    (more : List Char) : closesBrace (blanks ++ '\x7d' :: more) = true := by
  rw [closesBrace, List.dropWhile_append_of_pos h]
  simp [isSpaceOrTab]

/-! ## The lines of a tidied text -/

theorem tidyLines_settled (t : List Char) : Settled none (tidyLines t) := settle_settled _ _ _

theorem tidy_of_no_lines {t : List Char} (h : tidyLines t = []) : tidy t = ['\n'] := by
  rw [tidy_eq, h]
  rfl

theorem splitOn_tidy {t : List Char} (h : tidyLines t ≠ []) :
    splitOn '\n' (tidy t) = tidyLines t ++ [[]] := by
  rw [tidy_eq, joinLines_newline h, splitOn_terminate (newline_notMem_tidyLines t)]

theorem tidyLines_ne_nil_of_length {t : List Char} (h : 1 < (tidy t).length) : tidyLines t ≠ [] := by
  intro hnil
  rw [tidy_of_no_lines hnil] at h
  exact absurd h (by decide)

/-- No line of a tidied text ends in a space or a tab. -/
theorem last_of_mem_tidyLines {t init : List Char} {c : Char} (h : init ++ [c] ∈ tidyLines t) :
    isSpaceOrTab c = false := by
  rcases mem_settle h with hnil | hline
  · exact absurd hnil (by simp)
  · obtain ⟨piece, -, hpiece⟩ := List.mem_map.mp hline
    exact last_dropWhileEnd hpiece

/-- What stands in front of a newline is the end of a line. -/
theorem exists_line_of_newline {t a b : List Char} {c : Char} (hc : c ≠ '\n')
    (h : tidy t = a ++ c :: '\n' :: b) : ∃ init, init ++ [c] ∈ tidyLines t := by
  have hlines : tidyLines t ≠ [] := tidyLines_ne_nil_of_length (by simp [h]; omega)
  obtain ⟨front, last, hfront⟩ := exists_splitOn_append (s := '\n') a
  have hsplit : tidyLines t ++ [[]] = (front ++ [last ++ [c]]) ++ splitOn '\n' b := by
    rw [← hfront [c] (by simpa using hc.symm), ← splitOn_append, ← splitOn_tidy hlines, h]
    simp
  have hmem : last ++ [c] ∈ tidyLines t ++ [[]] := by simp [hsplit]
  exact ⟨last, by simpa using hmem⟩

/-- Two newlines in a row are an empty line, and it separates two filled lines of the right
kind. -/
theorem around_gap {t a b : List Char} (h : tidy t = a ++ '\n' :: '\n' :: b) :
    (∃ front above, splitOn '\n' a = front ++ [above] ∧ opensBrace above = false)
      ∧ ∃ below back, splitOn '\n' b = below :: back ∧ below ≠ [] ∧ closesBrace below = false := by
  have hlines : tidyLines t ≠ [] := tidyLines_ne_nil_of_length (by simp [h]; omega)
  have hsplit : tidyLines t ++ [[]] = (splitOn '\n' a ++ [[]]) ++ splitOn '\n' b := by
    rw [← splitOn_tidy hlines, h, splitOn_append, splitOn, if_pos rfl, List.append_assoc]
    rfl
  -- The empty piece at the end of the file belongs to what stands below.
  obtain ⟨back, last, hb⟩ : ∃ back last, splitOn '\n' b = back ++ [last] :=
    ⟨_, _, (List.dropLast_concat_getLast (splitOn_ne_nil '\n' b)).symm⟩
  rw [hb, ← List.append_assoc] at hsplit
  obtain ⟨hsettled, hlast⟩ := List.append_inj' hsplit rfl
  have hgap := tidyLines_settled t
  rw [hsettled, List.append_assoc] at hgap
  obtain ⟨⟨front, above, hfront, hopens⟩, below, back', rfl, hne, hcloses⟩ := hgap.around
  exact ⟨⟨front, above, hfront, hopens⟩, below, back' ++ [last], hb, hne, hcloses⟩

/-! ## The form -/

/-- A text in the form that tidying gives it. -/
structure Tidied (t : List Char) : Prop where
  line_ends : ∀ c, isSpaceOrTab c = true → ¬ [c, '\n'] <:+: t
  text_end : ∀ c, isSpaceOrTab c = true → ¬ [c] <:+ t
  one_gap : ¬ ['\n', '\n', '\n'] <:+: t
  below_opening : ¬ ['\x7b', '\n', '\n'] <:+: t
  above_closing : ∀ blanks, (∀ c ∈ blanks, isSpaceOrTab c = true) →
    ¬ '\n' :: '\n' :: (blanks ++ ['\x7d']) <:+: t
  start : ['\n'] <+: t → t = ['\n']
  newline : ['\n'] <:+ t
  one_newline : ¬ ['\n', '\n'] <:+ t

/-- Below an empty line stands no line that begins with a closing brace. -/
theorem not_gap_above_closing {t a b blanks : List Char}
    (hblanks : ∀ c ∈ blanks, isSpaceOrTab c = true) :
    tidy t ≠ a ++ '\n' :: '\n' :: (blanks ++ '\x7d' :: b) := by
  intro h
  obtain ⟨-, below, back, hbelow, -, hcloses⟩ := around_gap h
  have hnewline : '\n' ∉ blanks ++ ['\x7d'] := by
    intro hmem
    rcases List.mem_append.mp hmem with hmem | hmem
    · exact absurd (hblanks _ hmem) (by decide)
    · exact absurd hmem (by decide)
  have hsplit := splitOn_append_of_notMem hnewline b
  rw [List.append_assoc, List.singleton_append, hbelow] at hsplit
  cases hb : splitOn '\n' b with
  | nil => exact absurd hb (splitOn_ne_nil _ _)
  | cons more _ =>
    rw [hb] at hsplit
    obtain rfl : below = blanks ++ '\x7d' :: more := by simpa using (List.cons.inj hsplit).1
    rw [closesBrace_append hblanks] at hcloses
    exact absurd hcloses (by simp)

/-- Above an empty line stands no line that ends in an opening brace. -/
theorem not_gap_below_opening {t a b : List Char} :
    tidy t ≠ a ++ '\x7b' :: '\n' :: '\n' :: b := by
  intro h
  obtain ⟨⟨front, above, hfront, hopens⟩, -⟩ := @around_gap t (a ++ ['\x7b']) b (by simp [h])
  obtain ⟨front', last, hlast⟩ := exists_splitOn_append (s := '\n') a
  rw [hlast ['\x7b'] (by decide)] at hfront
  obtain ⟨-, habove⟩ := List.append_inj' hfront rfl
  rw [← List.singleton_inj.mp habove, opensBrace_concat] at hopens
  exact absurd hopens (by simp)

/-- A tidied text begins with a newline only where it is nothing else. -/
theorem tidy_of_newline_prefix {t b : List Char} (h : tidy t = '\n' :: b) : tidy t = ['\n'] := by
  by_cases hlines : tidyLines t = []
  · exact tidy_of_no_lines hlines
  · have hsplit : tidyLines t ++ [[]] = [] :: splitOn '\n' b := by
      rw [← splitOn_tidy hlines, h, splitOn, if_pos rfl]
    obtain ⟨first, rest, hfirst⟩ := List.exists_cons_of_ne_nil hlines
    have hgap := tidyLines_settled t
    rw [hfirst] at hsplit hgap
    exact absurd (List.cons.inj hsplit).1 hgap.head_ne_nil

theorem tidied_tidy (t : List Char) : Tidied (tidy t) where
  line_ends c hc := by
    rintro ⟨a, b, h⟩
    have hnewline : c ≠ '\n' := by
      rintro rfl
      exact absurd hc (by decide)
    obtain ⟨init, hmem⟩ := @exists_line_of_newline t a b c hnewline (by simp [← h])
    rw [last_of_mem_tidyLines hmem] at hc
    exact absurd hc (by simp)
  text_end c hc := by
    rintro ⟨a, h⟩
    obtain ⟨-, hlast⟩ := List.append_inj' ((tidy_eq t).symm.trans h.symm) rfl
    rw [← List.singleton_inj.mp hlast] at hc
    exact absurd hc (by decide)
  one_gap := by
    rintro ⟨a, b, h⟩
    obtain ⟨-, below, back, hbelow, hne, -⟩ := @around_gap t a ('\n' :: b) (by simp [← h])
    rw [splitOn, if_pos rfl] at hbelow
    exact hne (List.cons.inj hbelow).1.symm
  below_opening := by
    rintro ⟨a, b, h⟩
    exact @not_gap_below_opening t a b (by simp [← h])
  above_closing blanks hblanks := by
    rintro ⟨a, b, h⟩
    exact @not_gap_above_closing t a b blanks hblanks (by simp [← h])
  start := by
    rintro ⟨b, h⟩
    exact tidy_of_newline_prefix h.symm
  newline := ⟨_, rfl⟩
  one_newline := by
    rintro ⟨a, h⟩
    obtain ⟨-, below, back, hbelow, hne, -⟩ := @around_gap t a [] h.symm
    exact hne (List.cons.inj hbelow).1.symm

/-! ## Tidying once more -/

theorem trimLine_trimLine (line : List Char) : trimLine (trimLine line) = trimLine line := by
  rcases List.eq_nil_or_concat (trimLine line) with hnil | ⟨init, c, hlast⟩
  · rw [hnil]
    rfl
  · rw [List.concat_eq_append] at hlast
    rw [hlast]
    exact dropWhileEnd_concat (last_dropWhileEnd hlast)

theorem trimLine_of_mem_tidyLines {t line : List Char} (h : line ∈ tidyLines t) :
    trimLine line = line := by
  rcases mem_settle h with rfl | hline
  · rfl
  · obtain ⟨piece, -, rfl⟩ := List.mem_map.mp hline
    exact trimLine_trimLine piece

/-- Without a carriage return before a newline, a tidied text is tidied to itself. -/
theorem tidy_tidy {t : List Char} (h : ¬ HasReturnPair (tidy t)) : tidy (tidy t) = tidy t := by
  have htrimmed : (tidyLines t).map trimLine = tidyLines t :=
    (List.map_congr_left fun line hline => trimLine_of_mem_tidyLines hline).trans (List.map_id _)
  have hlines : tidyLines (tidy t) = tidyLines t := by
    rw [tidyLines, trimmedLines, unixNewlines_of_unpaired h]
    by_cases hnil : tidyLines t = []
    · rw [tidy_of_no_lines hnil, hnil]
      rfl
    · rw [splitOn_tidy hnil, List.map_append]
      show settle none false ((tidyLines t).map trimLine ++ [[]]) = _
      rw [htrimmed, settle_concat_nil]
      exact (tidyLines_settled t).settle_eq
  rw [tidy_eq, hlines, ← tidy_eq]

/-! ## What tidying keeps -/

/-- The newline at the end of a tidied text ends a line and begins none that holds something. -/
theorem filled_splitOn_tidy (t : List Char) :
    filled (splitOn '\n' (tidy t)) = filled (tidyLines t) := by
  by_cases hnil : tidyLines t = []
  · rw [tidy_of_no_lines hnil, hnil]
    rfl
  · rw [splitOn_tidy hnil, filled, List.filter_append]
    exact List.append_nil _

theorem sum_count_filled (c : Char) (lines : List (List Char)) :
    ((filled lines).map (List.count c)).sum = (lines.map (List.count c)).sum := by
  induction lines with
  | nil => rfl
  | cons line lines ih =>
    cases line with
    | nil => simpa [filled] using ih
    | cons x xs => simpa [filled] using ih

theorem sum_count_splitOn {c s : Char} (hc : c ≠ s) (t : List Char) :
    ((splitOn s t).map (List.count c)).sum = t.count c := by
  induction t with
  | nil => rfl
  | cons x t ih =>
    rw [splitOn_cons, List.count_cons, ← ih]
    by_cases hx : x = s
    · simp [hx, Ne.symm hc]
    · rw [if_neg hx]
      cases hs : splitOn s t with
      | nil => exact absurd hs (splitOn_ne_nil s t)
      | cons piece pieces =>
        simp [List.count_cons]
        omega

theorem count_dropWhileEnd {p : Char → Bool} {c : Char} (hc : p c = false) (t : List Char) :
    (dropWhileEnd p t).count c = t.count c := by
  obtain ⟨dropped, ht, hdropped⟩ := dropWhileEnd_spec (p := p) t
  have hnone : dropped.count c = 0 := by
    rw [List.count_eq_zero]
    intro hmem
    rw [hdropped c hmem] at hc
    exact absurd hc (by simp)
  have hcount := congrArg (List.count c) ht
  rw [List.count_append, hnone, Nat.add_zero] at hcount
  exact hcount.symm

/-- Only newlines, spaces and tabs are lost. -/
theorem count_tidy {c : Char} (hc : c ≠ '\n') (hspace : isSpaceOrTab c = false) (t : List Char) :
    (tidy t).count c = (unixNewlines t).count c := by
  have htrim : List.count c ∘ dropWhileEnd isSpaceOrTab = List.count c :=
    funext fun line => count_dropWhileEnd hspace line
  calc (tidy t).count c
      = ((filled (splitOn '\n' (tidy t))).map (List.count c)).sum := by
        rw [sum_count_filled, sum_count_splitOn hc]
    _ = ((filled (trimmedLines t)).map (List.count c)).sum := by
        rw [filled_splitOn_tidy, tidyLines, filled_settle]
    _ = ((splitOn '\n' (unixNewlines t)).map (List.count c)).sum := by
        rw [sum_count_filled, trimmedLines, List.map_map, htrim]
    _ = (unixNewlines t).count c := sum_count_splitOn hc _

/-! ## One pass is enough -/

/-- **Tidying once gives the form.**  A tidied text has the form `Tidied`, and tidying it again
changes it only where a carriage return is left before a newline.  There is none if the text has no
carriage return at all. -/
theorem tidy_canonical (t : List Char) :
    Tidied (tidy t) ∧ (tidy (tidy t) = tidy t ↔ ¬ HasReturnPair (tidy t))
      ∧ ('\r' ∉ t → tidy (tidy t) = tidy t) := by
  have hreturns := count_tidy (c := '\r') (by decide) (by decide)
  refine ⟨tidied_tidy t, ⟨?_, tidy_tidy⟩, ?_⟩
  · -- A pair costs a carriage return, and tidying brings in no other.
    intro hfixed hpair
    have hlost := count_unixNewlines_lt hpair
    rw [← hreturns, hfixed] at hlost
    exact Nat.lt_irrefl _ hlost
  · intro hnone
    refine tidy_tidy fun hpair => ?_
    have hmem : '\r' ∈ tidy t := hpair.subset List.mem_cons_self
    have hpos := List.count_pos_iff.mpr hmem
    rw [hreturns] at hpos
    exact absurd (List.count_pos_iff.mp (Nat.lt_of_lt_of_le hpos (count_unixNewlines_le t))) hnone

/-- A class with empty lines below and above its braces, and no carriage return. -/
theorem tidy_canonical_class :
    '\r' ∉ "\n\nclass C\n\x7b\n\n    a;\n\n\n    b;   \n\n\x7d\n\n".toList
      ∧ tidy (tidy "\n\nclass C\n\x7b\n\n    a;\n\n\n    b;   \n\n\x7d\n\n".toList)
        = "class C\n\x7b\n    a;\n\n    b;\n\x7d\n".toList := by
  have hnone : '\r' ∉ "\n\nclass C\n\x7b\n\n    a;\n\n\n    b;   \n\n\x7d\n\n".toList := by
    decide
  refine ⟨hnone, ?_⟩
  rw [(tidy_canonical _).2.2 hnone]
  decide

-- A space that is dropped can bring a carriage return before a newline.
example : tidy "a\r \nb".toList = "a\r\nb\n".toList
    ∧ tidy "a\r\nb\n".toList = "a\nb\n".toList := by decide

/-- **Nothing that stands in a line is lost.**  The filled lines of a tidied text are those of the
text itself, in order and with their indentation, apart from the spaces and tabs at their ends. -/
theorem filled_lines_kept (t : List Char) :
    filled (splitOn '\n' (tidy t)) =
      filled ((splitOn '\n' (unixNewlines t)).map (dropWhileEnd isSpaceOrTab)) := by
  rw [filled_splitOn_tidy]
  exact filled_settle none false (trimmedLines t)

end Interop.Source
