import Interop.Source.Tidy

/-!
# The lines of a text

Lines put together are lines side by side: a text that is built from pieces with newlines between
them has the lines of its pieces, in order.  This is what lets a generated text be read line by
line, however deep the calls were that built it.

Most facts hold of texts whose only line breaks are newlines (`NewlinesOnly`).  On these the three
notions of a line agree: `splitOn`, which breaks at newlines, `splitLines`, which breaks at every
separator, and `trimmedLines`, which also joins a carriage return with the newline after it.  Of any
text it holds that a newline separates the lines above it from the lines below it.
-/

set_option autoImplicit false

namespace Interop.Text

/-! ## Texts without other line breaks -/

/-- Every line break of the text is a newline. -/
def NewlinesOnly (t : List Char) : Prop := ∀ c ∈ t, isLineBreak c = true → c = '\n'

/-- The text has no line break at all. -/
def SingleLine (t : List Char) : Prop := ∀ c ∈ t, isLineBreak c = false

instance (t : List Char) : Decidable (NewlinesOnly t) :=
  List.decidableBAll (fun c => isLineBreak c = true → c = '\n') t

instance (t : List Char) : Decidable (SingleLine t) :=
  List.decidableBAll (fun c => isLineBreak c = false) t

theorem NewlinesOnly.nil : NewlinesOnly [] := fun _ h => absurd h (by simp)

theorem SingleLine.newlinesOnly {t : List Char} (h : SingleLine t) : NewlinesOnly t := by
  intro c hc hb
  rw [h c hc] at hb
  exact absurd hb (by simp)

@[simp] theorem newlinesOnly_append {a b : List Char} :
    NewlinesOnly (a ++ b) ↔ NewlinesOnly a ∧ NewlinesOnly b := by
  simp only [NewlinesOnly, List.mem_append, or_imp, forall_and]

theorem newlinesOnly_cons {c : Char} {t : List Char} :
    NewlinesOnly (c :: t) ↔ (isLineBreak c = true → c = '\n') ∧ NewlinesOnly t := by
  simp only [NewlinesOnly, List.mem_cons, or_imp, forall_and, forall_eq]

@[simp] theorem newlinesOnly_newline {t : List Char} :
    NewlinesOnly ('\n' :: t) ↔ NewlinesOnly t := by
  rw [newlinesOnly_cons]
  exact and_iff_right fun _ => rfl

theorem NewlinesOnly.cons {c : Char} {t : List Char} (hc : isLineBreak c = false)
    (ht : NewlinesOnly t) : NewlinesOnly (c :: t) :=
  newlinesOnly_cons.mpr ⟨fun h => absurd h (by simp [hc]), ht⟩

theorem NewlinesOnly.mono {a b : List Char} (hb : NewlinesOnly b) (h : ∀ c ∈ a, c ∈ b) :
    NewlinesOnly a :=
  fun c hc => hb c (h c hc)

theorem NewlinesOnly.flatten {ts : List (List Char)} (h : ∀ t ∈ ts, NewlinesOnly t) :
    NewlinesOnly ts.flatten := by
  intro c hc
  obtain ⟨t, ht, hct⟩ := List.mem_flatten.mp hc
  exact h t ht c hct

theorem SingleLine.mono {a b : List Char} (hb : SingleLine b) (h : ∀ c ∈ a, c ∈ b) :
    SingleLine a :=
  fun c hc => hb c (h c hc)

@[simp] theorem singleLine_append {a b : List Char} :
    SingleLine (a ++ b) ↔ SingleLine a ∧ SingleLine b := by
  simp only [SingleLine, List.mem_append, or_imp, forall_and]

@[simp] theorem singleLine_cons {c : Char} {t : List Char} :
    SingleLine (c :: t) ↔ isLineBreak c = false ∧ SingleLine t := by
  simp only [SingleLine, List.mem_cons, or_imp, forall_and, forall_eq]

theorem SingleLine.newline_notMem {t : List Char} (h : SingleLine t) : '\n' ∉ t := by
  intro hn
  exact absurd (h _ hn) (by decide)

theorem NewlinesOnly.carriageReturn_notMem {t : List Char} (h : NewlinesOnly t) : '\r' ∉ t := by
  intro hr
  exact absurd (h _ hr (by decide)) (by decide)

/-! ## Splitting at a character -/

section Split

variable {s : Char}

theorem splitOn_cons (c : Char) (t : List Char) :
    splitOn s (c :: t) =
      if c = s then [] :: splitOn s t else (splitOn s t).modifyHead (c :: ·) := by
  simp only [splitOn]
  split
  · rfl
  · cases h : splitOn s t with
    | nil => exact absurd h (splitOn_ne_nil s t)
    | cons _ _ => rfl

theorem splitOn_append (a b : List Char) :
    splitOn s (a ++ s :: b) = splitOn s a ++ splitOn s b := by
  induction a with
  | nil => simp [splitOn]
  | cons c a ih =>
    rw [List.cons_append, splitOn_cons, splitOn_cons, ih]
    split
    · rfl
    · cases h : splitOn s a with
      | nil => exact absurd h (splitOn_ne_nil s a)
      | cons _ _ => rfl

theorem splitOn_of_notMem {t : List Char} (h : s ∉ t) : splitOn s t = [t] := by
  induction t with
  | nil => rfl
  | cons c t ih =>
    simp only [List.mem_cons, not_or] at h
    rw [splitOn_cons, if_neg (Ne.symm h.1), ih h.2]
    rfl

theorem mem_splitOn {t piece : List Char} (h : piece ∈ splitOn s t) :
    s ∉ piece ∧ ∀ c ∈ piece, c ∈ t := by
  induction t generalizing piece with
  | nil =>
    simp only [splitOn, List.mem_singleton] at h
    subst h
    simp
  | cons c t ih =>
    rw [splitOn_cons] at h
    split at h
    · rcases List.mem_cons.mp h with rfl | h
      · simp
      · exact ⟨(ih h).1, fun x hx => List.mem_cons_of_mem _ ((ih h).2 x hx)⟩
    · rename_i hc
      cases hs : splitOn s t with
      | nil => exact absurd hs (splitOn_ne_nil s t)
      | cons p ps =>
        rw [hs] at h ih
        rcases List.mem_cons.mp h with rfl | h
        · have hp := @ih p List.mem_cons_self
          refine ⟨by simp [hp.1, Ne.symm hc], fun x hx => ?_⟩
          rcases List.mem_cons.mp hx with rfl | hx
          · exact List.mem_cons_self
          · exact List.mem_cons_of_mem _ (hp.2 x hx)
        · have hp := ih (List.mem_cons_of_mem _ h)
          exact ⟨hp.1, fun x hx => List.mem_cons_of_mem _ (hp.2 x hx)⟩

theorem joinWith_cons (separator piece : List Char) {pieces : List (List Char)}
    (h : pieces ≠ []) :
    joinWith separator (piece :: pieces) = piece ++ separator ++ joinWith separator pieces := by
  cases pieces with
  | nil => exact absurd rfl h
  | cons _ _ => rfl

theorem splitOn_joinWith {pieces : List (List Char)} (hne : pieces ≠ [])
    (h : ∀ piece ∈ pieces, s ∉ piece) : splitOn s (joinWith [s] pieces) = pieces := by
  induction pieces with
  | nil => exact absurd rfl hne
  | cons piece pieces ih =>
    have hpiece := splitOn_of_notMem (h piece List.mem_cons_self)
    cases pieces with
    | nil => exact hpiece
    | cons next pieces =>
      rw [joinWith_cons _ _ (by simp), List.append_assoc, List.singleton_append, splitOn_append,
        hpiece, ih (by simp) fun p hp => h p (List.mem_cons_of_mem _ hp)]
      rfl

theorem mem_joinWith {separator : List Char} {pieces : List (List Char)} {c : Char}
    (h : c ∈ joinWith separator pieces) : c ∈ separator ∨ ∃ piece ∈ pieces, c ∈ piece := by
  induction pieces with
  | nil => exact absurd h (by simp [joinWith])
  | cons piece pieces ih =>
    by_cases hne : pieces = []
    · subst hne
      exact Or.inr ⟨piece, List.mem_cons_self, h⟩
    · rw [joinWith_cons _ _ hne, List.mem_append, List.mem_append] at h
      rcases h with (h | h) | h
      · exact Or.inr ⟨piece, List.mem_cons_self, h⟩
      · exact Or.inl h
      · rcases ih h with h | ⟨p, hp, hc⟩
        · exact Or.inl h
        · exact Or.inr ⟨p, List.mem_cons_of_mem _ hp, hc⟩

/-- A text without separators stands at the beginning of the first piece. -/
theorem splitOn_append_of_notMem {a : List Char} (h : s ∉ a) (b : List Char) :
    splitOn s (a ++ b) = (splitOn s b).modifyHead (a ++ ·) := by
  induction a with
  | nil =>
    cases hb : splitOn s b with
    | nil => exact absurd hb (splitOn_ne_nil s b)
    | cons _ _ => simp [hb]
  | cons c a ih =>
    simp only [List.mem_cons, not_or] at h
    rw [List.cons_append, splitOn_cons, if_neg (Ne.symm h.1), ih h.2]
    cases hb : splitOn s b with
    | nil => exact absurd hb (splitOn_ne_nil s b)
    | cons _ _ => rfl

/-- A text without separators stands at the end of the last piece. -/
theorem exists_splitOn_append (a : List Char) :
    ∃ front last, ∀ b : List Char, s ∉ b → splitOn s (a ++ b) = front ++ [last ++ b] := by
  induction a with
  | nil => exact ⟨[], [], fun b hb => splitOn_of_notMem hb⟩
  | cons c a ih =>
    obtain ⟨front, last, ih⟩ := ih
    by_cases hc : c = s
    · refine ⟨[] :: front, last, fun b hb => ?_⟩
      rw [List.cons_append, splitOn_cons, if_pos hc, ih b hb]
      rfl
    · cases front with
      | nil =>
        refine ⟨[], c :: last, fun b hb => ?_⟩
        rw [List.cons_append, splitOn_cons, if_neg hc, ih b hb]
        rfl
      | cons piece front =>
        refine ⟨(c :: piece) :: front, last, fun b hb => ?_⟩
        rw [List.cons_append, splitOn_cons, if_neg hc, ih b hb]
        rfl

end Split

/-! ## Lines with a newline after each -/

/-- Lines with a newline after each. -/
def terminate (lines : List (List Char)) : List Char := lines.flatMap (· ++ ['\n'])

theorem joinLines_append_newline {lines : List (List Char)} (h : lines ≠ []) (rest : List Char) :
    joinLines lines ++ '\n' :: rest = terminate lines ++ rest := by
  induction lines with
  | nil => exact absurd rfl h
  | cons line lines ih =>
    rw [terminate, List.flatMap_cons, joinLines]
    by_cases hne : lines = []
    · subst hne
      simp [joinWith]
    · have ih := ih hne
      rw [terminate, joinLines] at ih
      rw [joinWith_cons _ _ hne, List.append_assoc, ih]
      simp

theorem terminate_append (xs ys : List (List Char)) :
    terminate (xs ++ ys) = terminate xs ++ terminate ys := List.flatMap_append

theorem joinLines_newline {lines : List (List Char)} (h : lines ≠ []) :
    joinLines lines ++ ['\n'] = terminate lines := by
  rw [joinLines_append_newline h, List.append_nil]

theorem joinLines_concat_nil (lines : List (List Char)) :
    joinLines (lines ++ [[]]) = terminate lines := by
  induction lines with
  | nil => rfl
  | cons line lines ih =>
    rw [List.cons_append, joinLines, joinWith_cons _ _ (by simp)]
    rw [joinLines] at ih
    rw [ih]
    rfl

theorem splitOn_terminate {lines : List (List Char)} (h : ∀ line ∈ lines, '\n' ∉ line) :
    splitOn '\n' (terminate lines) = lines ++ [[]] := by
  rw [← joinLines_concat_nil]
  refine splitOn_joinWith (by simp) fun line hl => ?_
  rcases List.mem_append.mp hl with hl | hl
  · exact h line hl
  · rw [List.mem_singleton.mp hl]
    simp

theorem NewlinesOnly.joinWith {separator : List Char} {pieces : List (List Char)}
    (hs : NewlinesOnly separator) (h : ∀ piece ∈ pieces, NewlinesOnly piece) :
    NewlinesOnly (joinWith separator pieces) := by
  intro c hc
  rcases mem_joinWith hc with hc | ⟨p, hp, hc⟩
  · exact hs c hc
  · exact h p hp c hc

theorem SingleLine.joinWith {separator : List Char} {pieces : List (List Char)}
    (hs : SingleLine separator) (h : ∀ piece ∈ pieces, SingleLine piece) :
    SingleLine (joinWith separator pieces) := by
  intro c hc
  rcases mem_joinWith hc with hc | ⟨p, hp, hc⟩
  · exact hs c hc
  · exact h p hp c hc

/-! ## Carriage returns -/

/-- A carriage return with a newline after it. -/
def HasReturnPair (t : List Char) : Prop := ['\r', '\n'] <:+: t

theorem hasReturnPair_cons {c : Char} {t : List Char} :
    HasReturnPair (c :: t) ↔ (c = '\r' ∧ ∃ rest, t = '\n' :: rest) ∨ HasReturnPair t := by
  rw [HasReturnPair, List.infix_cons_iff, List.cons_prefix_cons]
  refine or_congr ⟨?_, ?_⟩ Iff.rfl
  · rintro ⟨rfl, rest, rfl⟩
    exact ⟨rfl, rest, rfl⟩
  · rintro ⟨rfl, rest, rfl⟩
    exact ⟨rfl, rest, rfl⟩

/-- Each pair costs a carriage return, and without a pair nothing is changed. -/
theorem unixNewlines_cases (t : List Char) :
    (¬ HasReturnPair t ∧ unixNewlines t = t)
      ∨ (HasReturnPair t ∧ (unixNewlines t).count '\r' < t.count '\r') := by
  fun_induction unixNewlines t with
  | case1 => exact .inl ⟨by simp [HasReturnPair], rfl⟩
  | case2 rest ih =>
    have hle : (unixNewlines rest).count '\r' ≤ rest.count '\r' := by
      rcases ih with ⟨-, hsame⟩ | ⟨-, hless⟩
      · exact Nat.le_of_eq (by rw [hsame])
      · exact Nat.le_of_lt hless
    refine .inr ⟨hasReturnPair_cons.mpr (.inl ⟨rfl, rest, rfl⟩), ?_⟩
    simpa [List.count_cons] using Nat.lt_succ_of_le hle
  | case3 c rest hpair ih =>
    rcases ih with ⟨hnone, hsame⟩ | ⟨hmore, hless⟩
    · refine .inl ⟨?_, by rw [hsame]⟩
      rw [hasReturnPair_cons]
      rintro (⟨rfl, rest', rfl⟩ | hmore)
      · exact hpair rest' rfl rfl
      · exact hnone hmore
    · refine .inr ⟨hasReturnPair_cons.mpr (.inr hmore), ?_⟩
      rw [List.count_cons, List.count_cons]
      exact Nat.add_lt_add_right hless _

theorem unixNewlines_of_unpaired {t : List Char} (h : ¬ HasReturnPair t) : unixNewlines t = t := by
  rcases unixNewlines_cases t with ⟨-, hsame⟩ | ⟨hpair, -⟩
  · exact hsame
  · exact absurd hpair h

theorem count_unixNewlines_lt {t : List Char} (h : HasReturnPair t) :
    (unixNewlines t).count '\r' < t.count '\r' := by
  rcases unixNewlines_cases t with ⟨hnone, -⟩ | ⟨-, hless⟩
  · exact absurd h hnone
  · exact hless

theorem count_unixNewlines_le (t : List Char) :
    (unixNewlines t).count '\r' ≤ t.count '\r' := by
  rcases unixNewlines_cases t with ⟨-, hsame⟩ | ⟨-, hless⟩
  · exact Nat.le_of_eq (by rw [hsame])
  · exact Nat.le_of_lt hless

theorem unixNewlines_eq_self {t : List Char} (h : '\r' ∉ t) : unixNewlines t = t :=
  unixNewlines_of_unpaired fun hpair => h (hpair.subset List.mem_cons_self)

/-! ## The three notions of a line agree -/

/-- A character that makes no pair with the next one ends a line or belongs to it. -/
theorem splitLines_unpaired {c : Char} {t : List Char}
    (hpair : ∀ rest, c = '\r' → t ≠ '\n' :: rest) :
    splitLines (c :: t) =
      if isLineBreak c then [] :: splitLines t
      else match splitLines t with
        | [] => [[c]]
        | line :: lines => (c :: line) :: lines :=
  splitLines.eq_3 c t hpair

/-- A separator at the end closes the last line, so all lines are there and none is added. -/
theorem splitLines_newline {t : List Char} (h : NewlinesOnly t) :
    splitLines (t ++ ['\n']) = splitOn '\n' t := by
  induction t with
  | nil => rfl
  | cons c t ih =>
    have hc := (newlinesOnly_cons.mp h).1
    have ih := ih (newlinesOnly_cons.mp h).2
    -- A carriage return would pair with the newline after it, and there is none.
    have hpair (rest : List Char) (hreturn : c = '\r') : t ++ ['\n'] ≠ '\n' :: rest := by
      subst hreturn
      exact absurd (hc (by decide)) (by decide)
    rw [List.cons_append, splitLines_unpaired hpair, ih]
    by_cases hb : isLineBreak c = true
    · rw [if_pos hb, hc hb, splitOn_cons, if_pos rfl]
    · have hn : c ≠ '\n' := fun e => hb (by rw [e]; decide)
      rw [if_neg hb, splitOn_cons, if_neg hn]
      cases hs : splitOn '\n' t with
      | nil => exact absurd hs (splitOn_ne_nil _ t)
      | cons _ _ => rfl

/-! ## Texts with any line breaks -/

theorem splitLines_ne_nil {t : List Char} (h : t ≠ []) : splitLines t ≠ [] := by
  fun_cases splitLines t with
  | case1 => exact absurd rfl h
  | case2 => exact List.cons_ne_nil _ _
  | case3 => exact List.cons_ne_nil _ _
  | case4 => exact List.cons_ne_nil _ _
  | case5 => exact List.cons_ne_nil _ _

/-- Before other text, such a character ends a line or is the first of the next one. -/
theorem splitLines_cons {c : Char} {t : List Char} (hpair : ∀ rest, c = '\r' → t ≠ '\n' :: rest)
    (ht : t ≠ []) :
    splitLines (c :: t) =
      if isLineBreak c then [] :: splitLines t else (splitLines t).modifyHead (c :: ·) := by
  rw [splitLines_unpaired hpair]
  split
  · rfl
  · cases h : splitLines t with
    | nil => exact absurd h (splitLines_ne_nil ht)
    | cons _ _ => rfl

/-- A carriage return inside a text pairs with nothing below the text. -/
theorem unpaired_append {c : Char} {a : List Char} (hpair : ∀ more, c = '\r' → a ≠ '\n' :: more)
    (h : ¬ (c = '\r' ∧ a = [])) (b more : List Char) (hc : c = '\r') :
    a ++ '\n' :: b ≠ '\n' :: more := by
  cases a with
  | nil => exact absurd ⟨hc, rfl⟩ h
  | cons d a =>
    intro he
    exact hpair a hc (by rw [(List.cons.inj he).1])

/-- The lines above a newline are those of the text up to it, whatever stands below. -/
theorem splitLines_append (a b : List Char) :
    splitLines (a ++ '\n' :: b) = splitLines (a ++ ['\n']) ++ splitLines b := by
  have hstep (c : Char) (rest : List Char) (hpair : ∀ more, c = '\r' → rest ≠ '\n' :: more)
      (ih : splitLines (rest ++ '\n' :: b) = splitLines (rest ++ ['\n']) ++ splitLines b) :
      splitLines (c :: rest ++ '\n' :: b) = splitLines (c :: rest ++ ['\n']) ++ splitLines b := by
    by_cases hreturn : c = '\r' ∧ rest = []
    · rw [hreturn.1, hreturn.2]
      rfl
    · have hapart := unpaired_append hpair hreturn
      rw [List.cons_append, List.cons_append, splitLines_cons (hapart b) (by simp),
        splitLines_cons (hapart []) (by simp), ih]
      split
      · rfl
      · cases h : splitLines (rest ++ ['\n']) with
        | nil => exact absurd h (splitLines_ne_nil (by simp))
        | cons _ _ => rfl
  fun_induction splitLines a with
  | case1 => simp [splitLines, isLineBreak]
  | case2 rest ih =>
    show [] :: splitLines (rest ++ '\n' :: b) = [] :: splitLines (rest ++ ['\n']) ++ splitLines b
    rw [ih]
    rfl
  | case3 c rest hpair _ ih => exact hstep c rest hpair ih
  | case4 c rest hpair _ _ ih => exact hstep c rest hpair ih
  | case5 c rest hpair _ _ _ _ ih => exact hstep c rest hpair ih

theorem singleLine_of_mem_splitLines {t line : List Char} (h : line ∈ splitLines t) :
    SingleLine line := by
  fun_induction splitLines t generalizing line with
  | case1 => exact absurd h (by simp)
  | case2 rest ih =>
    rcases List.mem_cons.mp h with rfl | h
    · exact fun _ hc => absurd hc (by simp)
    · exact ih h
  | case3 c rest _ _ ih =>
    rcases List.mem_cons.mp h with rfl | h
    · exact fun _ hc => absurd hc (by simp)
    · exact ih h
  | case4 c rest _ hc _ _ =>
    rw [List.mem_singleton.mp h]
    exact singleLine_cons.mpr ⟨by simpa using hc, fun _ hx => absurd hx (by simp)⟩
  | case5 c rest _ hc first lines hs ih =>
    rw [hs] at ih
    rcases List.mem_cons.mp h with rfl | h
    · exact singleLine_cons.mpr ⟨by simpa using hc, ih List.mem_cons_self⟩
    · exact ih (List.mem_cons_of_mem _ h)

/-- Lines with a newline after each are the lines of the text. -/
theorem splitLines_terminate {lines : List (List Char)} (h : ∀ line ∈ lines, SingleLine line)
    (t : List Char) : splitLines (terminate lines ++ t) = lines ++ splitLines t := by
  induction lines with
  | nil => rfl
  | cons line lines ih =>
    have hline := h line List.mem_cons_self
    have hfirst : splitLines (line ++ ['\n']) = [line] := by
      rw [splitLines_newline hline.newlinesOnly, splitOn_of_notMem hline.newline_notMem]
    have hsplit : terminate (line :: lines) ++ t = line ++ '\n' :: (terminate lines ++ t) := by
      simp [terminate]
    rw [hsplit, splitLines_append, hfirst, ih fun l hl => h l (List.mem_cons_of_mem _ hl)]
    rfl

/-- A newline ends what stands above it, so that and the rest are read one after the other. -/
theorem unixNewlines_append (a : List Char) :
    ∃ above, ∀ rest, unixNewlines (a ++ '\n' :: rest) = above ++ '\n' :: unixNewlines rest := by
  fun_induction unixNewlines a with
  | case1 => exact ⟨[], fun rest => unixNewlines.eq_3 '\n' rest fun _ h => absurd h (by decide)⟩
  | case2 a ih =>
    obtain ⟨above, ih⟩ := ih
    refine ⟨'\n' :: above, fun rest => ?_⟩
    show '\n' :: unixNewlines (a ++ '\n' :: rest) = _
    rw [ih rest]
    rfl
  | case3 c a hpair ih =>
    by_cases hreturn : c = '\r' ∧ a = []
    · rw [hreturn.1, hreturn.2]
      exact ⟨[], fun _ => rfl⟩
    · obtain ⟨above, ih⟩ := ih
      refine ⟨c :: above, fun rest => ?_⟩
      rw [List.cons_append, unixNewlines.eq_3 c _ (unpaired_append hpair hreturn rest), ih rest]
      rfl

end Interop.Text
