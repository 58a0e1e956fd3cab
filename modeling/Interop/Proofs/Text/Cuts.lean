import Interop.Proofs.Text.Lines

/-!
# Cutting a text into lines

Whether a text is indented or has its line ends tidied, what becomes of it is its lines, cut at all
separators or at newlines alone; a carriage return and a newline are one cut either way.  `cut` is
both (`splitLines_newline_eq_cut`, `splitOn_unixNewlines`).

Of any text it is known that the first line is where the text begins, and that the others are parts
of it; a text without breaks is a line by itself.
-/

set_option autoImplicit false

namespace Interop.Text

/-- The lines of a text that a newline follows. -/
def cut (breaks : Char → Bool) : List Char → List (List Char)
  | [] => [[]]
  | ['\r'] => [[]]
  | '\r' :: '\n' :: t => [] :: cut breaks t
  | c :: t => if breaks c then [] :: cut breaks t else (cut breaks t).modifyHead (c :: ·)

/-- What may cut a text: the newline does, and nothing but a line break does. -/
structure Cuts (breaks : Char → Bool) : Prop where
  newline : breaks '\n' = true
  isLineBreak : ∀ c, breaks c = true → isLineBreak c = true

theorem cuts_isLineBreak : Cuts isLineBreak := ⟨by decide, fun _ h => h⟩

theorem cuts_newline : Cuts (· == '\n') := by
  refine ⟨rfl, fun c h => ?_⟩
  rw [beq_iff_eq.mp h]
  decide

variable {breaks : Char → Bool} {t a b : List Char}

theorem Cuts.unbroken (h : Cuts breaks) (ht : SingleLine t) : ∀ c ∈ t, breaks c = false := by
  intro c hc
  cases hb : breaks c with
  | false => rfl
  | true =>
    have hbreak := ht c hc
    rw [h.isLineBreak c hb] at hbreak
    cases hbreak

theorem cut_cons {c : Char} (hc : isLineBreak c = false) (h : Cuts breaks) (t : List Char) :
    cut breaks (c :: t) = (cut breaks t).modifyHead (c :: ·) := by
  have hreturn : c ≠ '\r' := by
    rintro rfl
    cases hc
  have hline : SingleLine [c] := singleLine_cons.mpr ⟨hc, nofun⟩
  have hbreaks : breaks c = false := h.unbroken hline c List.mem_cons_self
  rw [cut]
  · rw [hbreaks]
    rfl
  · exact fun he _ => hreturn he
  · exact fun _ he _ => hreturn he

theorem cut_ne_nil (breaks : Char → Bool) (t : List Char) : cut breaks t ≠ [] := by
  fun_induction cut breaks t with
  | case1 => exact List.cons_ne_nil _ _
  | case2 => exact List.cons_ne_nil _ _
  | case3 => exact List.cons_ne_nil _ _
  | case4 => exact List.cons_ne_nil _ _
  | case5 c t _ _ _ ih =>
    cases h : cut breaks t with
    | nil => exact absurd h ih
    | cons line lines => exact List.cons_ne_nil _ _

/-! ## Both ways to cut -/

/-- The lines that indenting sees. -/
theorem splitLines_newline_eq_cut (t : List Char) :
    splitLines (t ++ ['\n']) = cut isLineBreak t := by
  have hstep {c : Char} {t : List Char} (hreturn : c = '\r' → t = [] → False)
      (hpair : ∀ rest, c = '\r' → t = '\n' :: rest → False) :
      splitLines (c :: t ++ ['\n']) =
        if isLineBreak c then [] :: splitLines (t ++ ['\n'])
        else (splitLines (t ++ ['\n'])).modifyHead (c :: ·) :=
    splitLines_cons (unpaired_append hpair (fun h => hreturn h.1 h.2) []) (by simp)
  fun_induction cut isLineBreak t with
  | case1 => rfl
  | case2 => rfl
  | case3 t ih => exact congrArg ([] :: ·) ih
  | case4 c t hreturn hpair hc ih => rw [hstep hreturn hpair, if_pos hc, ih]
  | case5 c t hreturn hpair hc ih => rw [hstep hreturn hpair, if_neg hc, ih]

/-- The lines that tidying sees, above a newline. -/
theorem splitOn_unixNewlines (t rest : List Char) :
    splitOn '\n' (unixNewlines (t ++ '\n' :: rest))
      = cut (· == '\n') t ++ splitOn '\n' (unixNewlines rest) := by
  have hstep {c : Char} {t : List Char} (hreturn : c = '\r' → t = [] → False)
      (hpair : ∀ rest, c = '\r' → t = '\n' :: rest → False) :
      unixNewlines (c :: t ++ '\n' :: rest) = c :: unixNewlines (t ++ '\n' :: rest) :=
    unixNewlines.eq_3 c _ fun more hc he =>
      unpaired_append hpair (fun h => hreturn h.1 h.2) rest more hc he
  fun_induction cut (· == '\n') t with
  | case1 =>
    have hnewline : unixNewlines ([] ++ '\n' :: rest) = '\n' :: unixNewlines rest :=
      unixNewlines.eq_3 '\n' rest fun _ h => absurd h (by decide)
    rw [hnewline, splitOn_cons, if_pos rfl]
    rfl
  | case2 =>
    show splitOn '\n' ('\n' :: unixNewlines rest) = _
    rw [splitOn_cons, if_pos rfl]
    rfl
  | case3 t ih =>
    show splitOn '\n' ('\n' :: unixNewlines (t ++ '\n' :: rest)) = _
    rw [splitOn_cons, if_pos rfl, ih]
    rfl
  | case4 c t hreturn hpair hc ih =>
    rw [hstep hreturn hpair, splitOn_cons, if_pos (beq_iff_eq.mp hc), ih]
    rfl
  | case5 c t hreturn hpair hc ih =>
    rw [hstep hreturn hpair, splitOn_cons, if_neg fun h => hc (beq_iff_eq.mpr h), ih]
    cases h : cut (· == '\n') t with
    | nil => exact absurd h (cut_ne_nil _ t)
    | cons line lines => rfl

/-! ## The lines of a text -/

theorem SingleLine.last_ne_return (h : SingleLine t) : t.getLast? ≠ some '\r' := fun hlast =>
  absurd (h _ (List.mem_of_getLast? hlast)) (by decide)

theorem cut_of_unbroken (h : ∀ c ∈ t, breaks c = false) (hnewline : breaks '\n' = true)
    (hlast : t.getLast? ≠ some '\r') : cut breaks t = [t] := by
  fun_induction cut breaks t with
  | case1 => rfl
  | case2 => exact absurd rfl hlast
  | case3 t ih =>
    have hno := h '\n' (List.mem_cons_of_mem _ List.mem_cons_self)
    rw [hnewline] at hno
    cases hno
  | case4 c t _ _ hc _ =>
    rw [h c List.mem_cons_self] at hc
    cases hc
  | case5 c t hreturn _ _ ih =>
    have hrest : t.getLast? ≠ some '\r' := by
      cases t with
      | nil => exact nofun
      | cons d t => rwa [List.getLast?_cons_cons] at hlast
    rw [ih (fun d hd => h d (List.mem_cons_of_mem _ hd)) hrest]
    rfl

/-- A line of its own at the front of a text is at the front of its first line. -/
theorem cut_append (ha : SingleLine a) (h : Cuts breaks) (b : List Char) :
    cut breaks (a ++ b) = (cut breaks b).modifyHead (a ++ ·) := by
  induction a with
  | nil =>
    cases hb : cut breaks b with
    | nil => exact absurd hb (cut_ne_nil _ b)
    | cons line lines => rw [List.nil_append, hb]; rfl
  | cons c a ih =>
    obtain ⟨hc, ha⟩ := singleLine_cons.mp ha
    rw [List.cons_append, cut_cons hc h, ih ha, List.modifyHead_modifyHead]
    rfl

/-- The first line is where the text begins, and the others are parts of it. -/
theorem exists_cut (breaks : Char → Bool) (t : List Char) :
    ∃ first others, cut breaks t = first :: others ∧ first <+: t ∧ ∀ line ∈ others, line <:+: t := by
  fun_induction cut breaks t with
  | case1 => exact ⟨[], [], rfl, List.nil_prefix, nofun⟩
  | case2 => exact ⟨[], [], rfl, List.nil_prefix, nofun⟩
  | case3 t ih =>
    obtain ⟨first, others, hlines, hfirst, hothers⟩ := ih
    refine ⟨[], _, rfl, List.nil_prefix, fun line hline => ?_⟩
    rw [hlines] at hline
    refine List.infix_cons (List.infix_cons ?_)
    rcases List.mem_cons.mp hline with rfl | hline
    · exact hfirst.isInfix
    · exact hothers line hline
  | case4 c t _ _ _ ih =>
    obtain ⟨first, others, hlines, hfirst, hothers⟩ := ih
    refine ⟨[], _, rfl, List.nil_prefix, fun line hline => ?_⟩
    rw [hlines] at hline
    refine List.infix_cons ?_
    rcases List.mem_cons.mp hline with rfl | hline
    · exact hfirst.isInfix
    · exact hothers line hline
  | case5 c t _ _ _ ih =>
    obtain ⟨first, others, hlines, hfirst, hothers⟩ := ih
    refine ⟨c :: first, others, by rw [hlines]; rfl, List.cons_prefix_cons.mpr ⟨rfl, hfirst⟩, ?_⟩
    exact fun line hline => List.infix_cons (hothers line hline)

/-- No break is left in a line. -/
theorem unbroken_of_mem_cut {line : List Char} (h : line ∈ cut breaks t) :
    ∀ c ∈ line, breaks c = false := by
  fun_induction cut breaks t generalizing line with
  | case1 =>
    rw [List.mem_singleton.mp h]
    exact nofun
  | case2 =>
    rw [List.mem_singleton.mp h]
    exact nofun
  | case3 t ih =>
    rcases List.mem_cons.mp h with rfl | h
    · exact nofun
    · exact ih h
  | case4 c t _ _ _ ih =>
    rcases List.mem_cons.mp h with rfl | h
    · exact nofun
    · exact ih h
  | case5 c t _ _ hc ih =>
    cases hlines : cut breaks t with
    | nil => exact absurd hlines (cut_ne_nil _ t)
    | cons first others =>
      rw [hlines] at h ih
      rcases List.mem_cons.mp h with rfl | h
      · exact List.forall_mem_cons.mpr ⟨by simpa using hc, ih List.mem_cons_self⟩
      · exact ih (List.mem_cons_of_mem _ h)

/-- The first line of a text with a break in it is cut off before the break. -/
theorem prefix_first_cut {first : List Char} {others : List (List Char)}
    (hlines : cut breaks (a ++ b) = first :: others) (hbreak : ∃ c ∈ a, breaks c = true) :
    first <+: a := by
  obtain ⟨first', others', hlines', hfirst, -⟩ := exists_cut breaks (a ++ b)
  rw [hlines] at hlines'
  cases hlines'
  rcases List.prefix_or_prefix_of_prefix hfirst (List.prefix_append a b) with hshort | hlong
  · exact hshort
  · obtain ⟨c, hc, hbreaks⟩ := hbreak
    have hmem : first ∈ cut breaks (a ++ b) := by
      rw [hlines]
      exact List.mem_cons_self
    rw [unbroken_of_mem_cut hmem c (hlong.subset hc)] at hbreaks
    cases hbreaks

end Interop.Text
