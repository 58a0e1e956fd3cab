import Interop.Proofs.Text.Blank
import Interop.Source.Pointer
import Mathlib

/-!
# One spelling for pointers

A type has the form `Spelled` once its pointers are normalized: no blank stands before a star, and
after a star stands one space before a name and none before a closing character.  The form is
reached whatever blanks stood there before, it keeps every other character, and normalizing it again
changes nothing (`pointers_spelled`).

Behind this is that a text is gone through once, from its end: what becomes of a character depends
on it and on the result for the characters after it (`spell_cons`).  So texts with the same result
have the same result behind any front (`spell_append`).
-/

set_option autoImplicit false

namespace Interop.Source

open Text

/-! ## Characters after a star -/

/-- The characters that have their place after a star. -/
def settlesStar (c : Char) : Bool := beginsName c || closesType c

theorem isBlank_of_settlesStar {c : Char} (h : settlesStar c = true) : isBlank c = false := by
  have hletter : c.isAlpha = true → 65 ≤ c.toNat ∧ c.toNat ≤ 122 := by
    intro halpha
    simp only [Char.isAlpha, Char.isUpper, Char.isLower, Bool.or_eq_true, Bool.and_eq_true,
      decide_eq_true_eq, ge_iff_le, UInt32.le_iff_toNat_le] at halpha
    rcases halpha with ⟨hmin, hmax⟩ | ⟨hmin, hmax⟩
    · exact ⟨hmin, Nat.le_trans hmax (by decide)⟩
    · exact ⟨Nat.le_trans (by decide) hmin, hmax⟩
  simp only [settlesStar, beginsName, closesType, Bool.or_eq_true, beq_iff_eq] at h
  rcases h with ((halpha | rfl) | rfl) | (((((rfl | rfl) | rfl) | rfl) | rfl) | rfl)
  · obtain ⟨hmin, hmax⟩ := hletter halpha
    rw [Bool.eq_false_iff]
    intro hblank
    simp only [isBlank, isWhiteSpace, Bool.or_eq_true, Bool.and_eq_true, decide_eq_true_eq,
      beq_iff_eq] at hblank
    omega
  all_goals decide

theorem ne_star_of_settlesStar {c : Char} (h : settlesStar c = true) : c ≠ '*' := by
  rintro rfl
  exact absurd h (by decide)

/-- All characters of the text are spaces or tabs. -/
def Spaces (t : List Char) : Prop := ∀ c ∈ t, isSpaceOrTab c = true

instance (t : List Char) : Decidable (Spaces t) :=
  List.decidableBAll (fun c => isSpaceOrTab c = true) t

/-- The text that stands after a star in place of spaces, tabs and the character `c`. -/
def afterStar (c : Char) (next : List Char) : List Char :=
  if beginsName c then ' ' :: c :: next else c :: next

theorem spaceAfterStar_append {gap : List Char} (hgap : Spaces gap) {c : Char}
    (hc : settlesStar c = true) (next : List Char) :
    spaceAfterStar (gap ++ c :: next) = afterStar c next := by
  have hspace := isSpaceOrTab_eq_false (isBlank_of_settlesStar hc)
  have hdrop : (gap ++ c :: next).dropWhile isSpaceOrTab = c :: next := by
    rw [List.dropWhile_append_of_pos hgap, List.dropWhile_cons_of_neg (by simp [hspace])]
  simp only [settlesStar, Bool.or_eq_true] at hc
  simp only [spaceAfterStar, hdrop, afterStar]
  split
  · rfl
  · next hname => rw [if_pos (hc.resolve_left hname)]

/-- What stands after a star is set, or it is left as it is. -/
theorem spaceAfterStar_cases (t : List Char) :
    (∃ gap c next, Spaces gap ∧ settlesStar c = true ∧ t = gap ++ c :: next
      ∧ spaceAfterStar t = afterStar c next) ∨ spaceAfterStar t = t := by
  have hsplit := (List.takeWhile_append_dropWhile (p := isSpaceOrTab) (l := t)).symm
  cases hdrop : t.dropWhile isSpaceOrTab with
  | nil => exact .inr (by simp [spaceAfterStar, hdrop])
  | cons c rest =>
    rw [hdrop] at hsplit
    by_cases hc : settlesStar c = true
    · have hgap : Spaces (t.takeWhile isSpaceOrTab) := fun x hx => List.mem_takeWhile_imp hx
      have hset := spaceAfterStar_append hgap hc rest
      rw [← hsplit] at hset
      exact .inl ⟨_, c, rest, hgap, hc, hsplit, hset⟩
    · simp only [settlesStar, Bool.or_eq_true, not_or] at hc
      exact .inr (by simp [spaceAfterStar, hdrop, hc])

theorem spaceAfterStar_afterStar {c : Char} (hc : settlesStar c = true) (next : List Char) :
    spaceAfterStar (afterStar c next) = afterStar c next := by
  by_cases hname : beginsName c = true
  · have hset := @spaceAfterStar_append [' '] (by decide) c hc next
    rwa [afterStar, if_pos hname] at hset ⊢
  · have hset := @spaceAfterStar_append [] (by decide) c hc next
    rwa [afterStar, if_neg hname] at hset ⊢

theorem spaceAfterStar_idem (t : List Char) :
    spaceAfterStar (spaceAfterStar t) = spaceAfterStar t := by
  rcases spaceAfterStar_cases t with ⟨gap, c, next, -, hc, -, hset⟩ | hleft
  · rw [hset, spaceAfterStar_afterStar hc]
  · rw [hleft, hleft]

/-! ## One pass from the end -/

/-- The text with the blanks around its stars set. -/
def spell (t : List Char) : List Char := spaceAfterStars (dropBlanksBeforeStars t)

theorem normalizePointers_eq (t : List Char) : normalizePointers t = spell (trim t) := rfl

theorem head?_spaceAfterStars (t : List Char) : (spaceAfterStars t).head? = t.head? := by
  cases t with
  | nil => rfl
  | cons c rest =>
    by_cases hc : c = '*'
    · simp [spaceAfterStars, hc]
    · simp [spaceAfterStars, hc]

/-- What becomes of a character, given the result for the text after it. -/
def spellBefore (c : Char) (after : List Char) : List Char :=
  if isBlank c ∧ after.head? = some '*' then after
  else if c = '*' then '*' :: spaceAfterStar after
  else c :: after

theorem spell_cons (c : Char) (t : List Char) : spell (c :: t) = spellBefore c (spell t) := by
  have hhead : (spell t).head? = (dropBlanksBeforeStars t).head? := head?_spaceAfterStars _
  unfold spellBefore
  rw [hhead, spell, dropBlanksBeforeStars]
  split
  · rfl
  · rw [spaceAfterStars]
    rfl

theorem spell_append {t t' : List Char} (h : spell t = spell t') (front : List Char) :
    spell (front ++ t) = spell (front ++ t') := by
  induction front with
  | nil => exact h
  | cons c front ih => rw [List.cons_append, List.cons_append, spell_cons, spell_cons, ih]

theorem spell_of_ne_star {c : Char} (hc : c ≠ '*') {t : List Char}
    (ht : (spell t).head? ≠ some '*') : spell (c :: t) = c :: spell t := by
  rw [spell_cons, spellBefore, if_neg fun h => ht h.2, if_neg hc]

theorem spell_star (t : List Char) : spell ('*' :: t) = '*' :: spaceAfterStar (spell t) := by
  rw [spell_cons, spellBefore, if_neg fun h => absurd h.1 (by decide), if_pos rfl]

theorem spell_of_not_isBlank {c : Char} (hblank : isBlank c = false) (hc : c ≠ '*')
    (t : List Char) :
    spell (c :: t) = c :: spell t := by
  rw [spell_cons, spellBefore, if_neg fun h => absurd h.1 (by simp [hblank]), if_neg hc]

/-! ## Blanks before and after a star -/

/-- Blanks before a star leave no trace. -/
theorem spell_blanks_star {gap : List Char} (hgap : ∀ c ∈ gap, isBlank c = true) (t : List Char) :
    spell (gap ++ '*' :: t) = spell ('*' :: t) := by
  induction gap with
  | nil => rfl
  | cons c gap ih =>
    obtain ⟨hc, hrest⟩ := List.forall_mem_cons.mp hgap
    rw [List.cons_append, spell_cons, ih hrest, spellBefore, if_pos]
    exact ⟨hc, by rw [spell_star]; rfl⟩

theorem spell_spaces {gap : List Char} (hgap : Spaces gap) {t : List Char}
    (ht : (spell t).head? ≠ some '*') : spell (gap ++ t) = gap ++ spell t := by
  induction gap with
  | nil => rfl
  | cons c gap ih =>
    obtain ⟨hc, hrest⟩ := List.forall_mem_cons.mp hgap
    have hstar : c ≠ '*' := by
      rintro rfl
      exact absurd hc (by decide)
    have ih := ih hrest
    have hhead : (spell (gap ++ t)).head? ≠ some '*' := by
      rw [ih]
      cases gap with
      | nil => exact ht
      | cons x gap =>
        intro hx
        rw [List.cons_append, List.head?_cons, Option.some_inj] at hx
        have hspace := hrest x List.mem_cons_self
        rw [hx] at hspace
        exact absurd hspace (by decide)
    rw [List.cons_append, spell_of_ne_star hstar hhead, ih]
    rfl

/-- Neither do spaces and tabs between a star and a character that settles it. -/
theorem spell_star_spaces {gap : List Char} (hgap : Spaces gap) {c : Char}
    (hc : settlesStar c = true) (t : List Char) :
    spell ('*' :: (gap ++ c :: t)) = '*' :: afterStar c (spell t) := by
  have hstar := ne_star_of_settlesStar hc
  have hspell := spell_of_not_isBlank (isBlank_of_settlesStar hc) hstar t
  have hhead : (spell (c :: t)).head? ≠ some '*' := by
    rw [hspell]
    simpa using hstar
  rw [spell_star, spell_spaces hgap hhead, hspell, spaceAfterStar_append hgap hc]

/-! ## The form -/

/-- No blank stands before a star. -/
def Attached (t : List Char) : Prop := t.IsChain fun c d => isBlank c = true → d ≠ '*'

/-- What stands after each star is set. -/
def StarsSet (t : List Char) : Prop := ∀ rest, '*' :: rest <:+ t → spaceAfterStar rest = rest

theorem Attached.spaceAfterStar {t : List Char} (h : Attached t) : Attached (spaceAfterStar t) := by
  rcases spaceAfterStar_cases t with ⟨gap, c, next, -, hc, ht, hset⟩ | hleft
  · have hnext : Attached (c :: next) := List.IsChain.infix h ⟨gap, [], by simp [ht]⟩
    rw [hset, afterStar]
    split
    · exact List.isChain_cons_cons.mpr ⟨fun _ => ne_star_of_settlesStar hc, hnext⟩
    · exact hnext
  · rw [hleft]
    exact h

theorem StarsSet.spaceAfterStar {t : List Char} (h : StarsSet t) : StarsSet (spaceAfterStar t) := by
  rcases spaceAfterStar_cases t with ⟨gap, c, next, -, -, ht, hset⟩ | hleft
  · have hnext : StarsSet (c :: next) :=
      fun rest hrest => h rest (hrest.trans ⟨gap, ht.symm⟩)
    rw [hset, afterStar]
    split
    · intro rest hrest
      rcases List.suffix_cons_iff.mp hrest with hspace | hrest
      · exact absurd (List.cons.inj hspace).1 (by decide)
      · exact hnext rest hrest
    · exact hnext
  · rw [hleft]
    exact h

theorem attached_spell (t : List Char) : Attached (spell t) := by
  induction t with
  | nil => exact .nil
  | cons c t ih =>
    rw [spell_cons, spellBefore]
    split
    · exact ih
    · next hkept =>
      split
      · exact List.isChain_cons.mpr ⟨fun _ _ hblank => absurd hblank (by decide), ih.spaceAfterStar⟩
      · refine List.isChain_cons.mpr ⟨fun d hd hblank hstar => hkept ⟨hblank, ?_⟩, ih⟩
        rw [← hstar]
        exact hd

theorem starsSet_spell (t : List Char) : StarsSet (spell t) := by
  induction t with
  | nil =>
    intro rest hrest
    exact absurd (List.suffix_nil.mp hrest) (by simp)
  | cons c t ih =>
    rw [spell_cons, spellBefore]
    split
    · exact ih
    · split
      · intro rest hrest
        rcases List.suffix_cons_iff.mp hrest with heq | hrest
        · rw [(List.cons.inj heq).2, spaceAfterStar_idem]
        · exact ih.spaceAfterStar rest hrest
      · next hc =>
        intro rest hrest
        rcases List.suffix_cons_iff.mp hrest with heq | hrest
        · exact absurd (List.cons.inj heq).1.symm hc
        · exact ih rest hrest

/-- In a text of the form nothing is left to be set. -/
theorem spell_eq_self {t : List Char} (hattached : Attached t) (hset : StarsSet t) :
    spell t = t := by
  induction t with
  | nil => rfl
  | cons c t ih =>
    obtain ⟨hc, ht⟩ := List.isChain_cons.mp hattached
    rw [spell_cons, ih ht fun rest hrest => hset rest (hrest.trans (List.suffix_cons c t)),
      spellBefore, if_neg fun hdrop => hc '*' hdrop.2 hdrop.1 rfl]
    split
    · next hstar =>
      have hsuffix : '*' :: t <:+ c :: t := hstar ▸ List.suffix_refl _
      rw [hset t hsuffix, hstar]
    · rfl

/-! ## What is kept -/

theorem filter_spaces {gap : List Char} (h : Spaces gap) : gap.filter (!isBlank ·) = [] := by
  rw [List.filter_eq_nil_iff]
  intro c hc
  simp [isBlank_of_isSpaceOrTab (h c hc)]

theorem filter_spaceAfterStar (t : List Char) :
    (spaceAfterStar t).filter (!isBlank ·) = t.filter (!isBlank ·) := by
  rcases spaceAfterStar_cases t with ⟨gap, c, next, hgap, -, ht, hset⟩ | hleft
  · rw [hset, ht, List.filter_append, filter_spaces hgap, List.nil_append, afterStar]
    split
    · exact List.filter_cons_of_neg (by decide)
    · rfl
  · rw [hleft]

theorem filter_spell (t : List Char) : (spell t).filter (!isBlank ·) = t.filter (!isBlank ·) := by
  induction t with
  | nil => rfl
  | cons c t ih =>
    rw [spell_cons, spellBefore]
    split
    · next hdrop => rw [ih, List.filter_cons_of_neg (by simp [hdrop.1])]
    · split
      · next hstar => rw [hstar, List.filter_cons, List.filter_cons, filter_spaceAfterStar, ih]
      · rw [List.filter_cons, List.filter_cons, ih]

theorem getLast?_spaceAfterStar (t : List Char) : (spaceAfterStar t).getLast? = t.getLast? := by
  rcases spaceAfterStar_cases t with ⟨gap, c, next, -, -, ht, hset⟩ | hleft
  · rw [hset, ht, afterStar]
    split <;> simp [List.getLast?_append, List.getLast?_cons]
  · rw [hleft]

theorem getLast?_spell (t : List Char) : (spell t).getLast? = t.getLast? := by
  induction t with
  | nil => rfl
  | cons c t ih =>
    rw [spell_cons, spellBefore, List.getLast?_cons, ← ih]
    split
    · next hdrop =>
      obtain ⟨rest, hrest⟩ := List.head?_eq_some_iff.mp hdrop.2
      rw [hrest, List.getLast?_cons]
      rfl
    · split
      · next hstar => rw [List.getLast?_cons, getLast?_spaceAfterStar, hstar]
      · rw [List.getLast?_cons]

/-! ## Surrounding blanks -/

/-- What is spelled has no blank at either end that it had not before. -/
theorem trim_spell_trim (t : List Char) : trim (spell (trim t)) = spell (trim t) := by
  cases htrim : trim t with
  | nil => rfl
  | cons c rest =>
    have hc : isBlank c = false := isBlank_head htrim
    obtain ⟨after, hfirst⟩ : ∃ after, spell (c :: rest) = c :: after := by
      rw [spell_cons, spellBefore, if_neg fun h => absurd h.1 (by simp [hc])]
      split
      · next hstar => exact ⟨_, by rw [hstar]⟩
      · exact ⟨_, rfl⟩
    obtain ⟨init, d, hlast⟩ : ∃ init d, spell (c :: rest) = init ++ [d] :=
      ⟨_, _, (List.dropLast_concat_getLast (by simp [hfirst])).symm⟩
    have hd : isBlank d = false := by
      have hgetLast := getLast?_spell (c :: rest)
      rw [hlast, List.getLast?_concat, ← htrim] at hgetLast
      obtain ⟨init', hinit⟩ := List.getLast?_eq_some_iff.mp hgetLast.symm
      exact isBlank_last hinit
    exact trimBy_eq_self hfirst hlast hc hd

/-! ## Spellings of one type -/

/-- Two spellings that differ in the blanks before one star, or in the spaces and tabs between one
star and a character that settles it. -/
inductive Respaced : List Char → List Char → Prop
  | before (front back : List Char) {gap gap' : List Char} (hgap : ∀ c ∈ gap, isBlank c = true)
      (hgap' : ∀ c ∈ gap', isBlank c = true) :
      Respaced (front ++ (gap ++ '*' :: back)) (front ++ (gap' ++ '*' :: back))
  | after (front back : List Char) {gap gap' : List Char} {c : Char} (hgap : Spaces gap)
      (hgap' : Spaces gap') (hc : settlesStar c = true) :
      Respaced (front ++ '*' :: (gap ++ c :: back)) (front ++ '*' :: (gap' ++ c :: back))

theorem normalizePointers_before (front back : List Char) {gap : List Char}
    (hgap : ∀ c ∈ gap, isBlank c = true) :
    normalizePointers (front ++ (gap ++ '*' :: back)) =
      spell (front.dropWhile isBlank ++ '*' :: dropWhileEnd isBlank back) := by
  -- Trimming takes the blanks away with the front, or leaves them where they are.
  have hfront : ∃ left, (∀ c ∈ left, isBlank c = true) ∧
      (front ++ gap).dropWhile isBlank = front.dropWhile isBlank ++ left := by
    rw [List.dropWhile_append]
    split
    · next hnil =>
      refine ⟨gap.dropWhile isBlank, fun c hc => hgap c ((List.dropWhile_sublist _).subset hc), ?_⟩
      rw [List.isEmpty_iff.mp hnil, List.nil_append]
    · exact ⟨gap, hgap, rfl⟩
  obtain ⟨left, hleft, hfront⟩ := hfront
  rw [normalizePointers_eq, ← List.append_assoc, trim_append_cons (by decide), hfront,
    List.append_assoc]
  exact spell_append (spell_blanks_star hleft _) _

theorem normalizePointers_after (front back : List Char) {gap : List Char} (hgap : Spaces gap)
    {c : Char} (hc : settlesStar c = true) :
    normalizePointers (front ++ '*' :: (gap ++ c :: back)) =
      spell (front.dropWhile isBlank ++ '*' :: c :: dropWhileEnd isBlank back) := by
  have hback : dropWhileEnd isBlank (gap ++ c :: back) = gap ++ c :: dropWhileEnd isBlank back := by
    have hcons := dropWhileEnd_cons_of_neg (isBlank_of_settlesStar hc) back
    rw [dropWhileEnd_append, hcons, if_neg (by simp)]
  have hnone : Spaces [] := by decide
  rw [normalizePointers_eq, trim_append_cons (by decide), hback]
  refine spell_append ?_ _
  rw [spell_star_spaces hgap hc, ← spell_star_spaces hnone hc, List.nil_append]

theorem normalizePointers_respaced {t t' : List Char} (h : Respaced t t') :
    normalizePointers t = normalizePointers t' := by
  cases h with
  | before front back hgap hgap' =>
    rw [normalizePointers_before front back hgap, normalizePointers_before front back hgap']
  | after front back hgap hgap' hc =>
    rw [normalizePointers_after front back hgap hc, normalizePointers_after front back hgap' hc]

theorem Respaced.cons {t t' : List Char} (h : Respaced t t') (c : Char) :
    Respaced (c :: t) (c :: t') := by
  cases h with
  | before front back hgap hgap' => exact .before (c :: front) back hgap hgap'
  | after front back hgap hgap' hc => exact .after (c :: front) back hgap hgap' hc

/-- A text comes to its spelling by changes of single gaps. -/
theorem respaced_spell (t : List Char) : Relation.ReflTransGen Respaced t (spell t) := by
  have hnone : ∀ c ∈ ([] : List Char), isBlank c = true := by simp
  induction t with
  | nil => exact .refl
  | cons c t ih =>
    have hrest : Relation.ReflTransGen Respaced (c :: t) (c :: spell t) :=
      ih.lift (c :: ·) fun _ _ h => h.cons c
    refine hrest.trans ?_
    rw [spell_cons, spellBefore]
    split
    · next hdrop =>
      obtain ⟨rest, hstar⟩ := List.head?_eq_some_iff.mp hdrop.2
      rw [hstar]
      exact .single (.before [] rest (List.forall_mem_singleton.mpr hdrop.1) hnone)
    · split
      · next hstar =>
        rw [hstar]
        rcases spaceAfterStar_cases (spell t) with ⟨gap, c, next, hgap, hc, ht, hset⟩ | hleft
        · rw [hset, ht, afterStar]
          split
          · exact .single (@Respaced.after [] next gap [' '] c hgap (by decide) hc)
          · exact .single (@Respaced.after [] next gap [] c hgap (by decide) hc)
        · rw [hleft]
      · exact .refl

/-- Two types have the same spelling exactly if changes of single gaps lead from one to the other,
surrounding blanks apart. -/
theorem normalizePointers_eq_iff {t t' : List Char} :
    normalizePointers t = normalizePointers t' ↔
      Relation.EqvGen Respaced (trim t) (trim t') := by
  have hspell (t : List Char) : Relation.EqvGen Respaced t (spell t) := by
    have hsteps := respaced_spell t
    generalize spell t = u at hsteps ⊢
    induction hsteps with
    | refl => exact .refl _
    | tail _ hstep ih => exact ih.trans _ _ _ (.rel _ _ hstep)
  constructor
  · intro h
    have hback := (hspell (trim t')).symm
    rw [← normalizePointers_eq, ← h] at hback
    exact (hspell (trim t)).trans _ _ _ hback
  · intro h
    have hsame {u u' : List Char} (h : Relation.EqvGen Respaced u u') :
        normalizePointers u = normalizePointers u' := by
      induction h with
      | rel _ _ hstep => exact normalizePointers_respaced hstep
      | refl _ => rfl
      | symm _ _ _ ih => exact ih.symm
      | trans _ _ _ _ _ ih ih' => exact ih.trans ih'
    have h := hsame h
    rwa [normalizePointers_eq, normalizePointers_eq, trim_trim, trim_trim] at h

/-- A type as it is spelled with its pointers normalized. -/
structure Spelled (t : List Char) : Prop where
  attached : ∀ c, isBlank c = true → ¬ [c, '*'] <:+: t
  named {front gap back : List Char} {c : Char} (ht : t = front ++ '*' :: (gap ++ c :: back))
    (hgap : Spaces gap) (hc : beginsName c = true) : gap = [' ']
  closed {front gap back : List Char} {c : Char} (ht : t = front ++ '*' :: (gap ++ c :: back))
    (hgap : Spaces gap) (hc : closesType c = true) : gap = []

theorem spelled_spell (t : List Char) : Spelled (spell t) := by
  have hset {front gap back : List Char} {c : Char}
      (ht : spell t = front ++ '*' :: (gap ++ c :: back))
      (hgap : Spaces gap) (hc : settlesStar c = true) : afterStar c back = gap ++ c :: back := by
    rw [← spaceAfterStar_append hgap hc]
    exact starsSet_spell t _ ⟨front, ht.symm⟩
  have hname {c : Char} (hc : closesType c = true) : beginsName c ≠ true := by
    simp only [closesType, Bool.or_eq_true, beq_iff_eq] at hc
    rcases hc with ((((rfl | rfl) | rfl) | rfl) | rfl) | rfl
    all_goals decide
  constructor
  · intro c hblank hinfix
    have hchain : Attached [c, '*'] := List.IsChain.infix (attached_spell t) hinfix
    exact (List.isChain_cons_cons.mp hchain).1 hblank rfl
  · intro front gap back c ht hgap hc
    have h := hset ht hgap (by simp [settlesStar, hc])
    rw [afterStar, if_pos hc] at h
    have hone : [' '] ++ c :: back = gap ++ c :: back := h
    exact (List.append_cancel_right hone).symm
  · intro front gap back c ht hgap hc
    have h := hset ht hgap (by simp [settlesStar, hc])
    rw [afterStar, if_neg (hname hc)] at h
    exact List.self_eq_append_left.mp h

/-- **Every type has one spelling.**  Normalizing its pointers keeps the visible characters of a
type in order and gives it the form `Spelled`, which is not changed any more; and spellings that
differ in blanks around a star alone come out the same. -/
theorem pointers_spelled (t : List Char) :
    (normalizePointers t).filter (!isBlank ·) = t.filter (!isBlank ·)
      ∧ Spelled (normalizePointers t)
      ∧ normalizePointers (normalizePointers t) = normalizePointers t
      ∧ ∀ t', Respaced t t' → normalizePointers t' = normalizePointers t := by
  refine ⟨?_, spelled_spell _, ?_, fun t' h => (normalizePointers_respaced h).symm⟩
  · rw [normalizePointers_eq, filter_spell, trim, filter_trimBy]
  · have hfixed := spell_eq_self (attached_spell (trim t)) (starsSet_spell (trim t))
    simp only [normalizePointers_eq]
    rw [trim_spell_trim, hfixed]

/-- A gap after a star may be changed, and another gap before a star is closed in any case. -/
theorem pointers_spelled_delegate :
    Respaced "delegate*unmanaged<int *, void>".toList "delegate* \tunmanaged<int *, void>".toList
      ∧ normalizePointers "delegate* \tunmanaged<int *, void>".toList
        = "delegate* unmanaged<int*, void>".toList := by
  have hgaps : Respaced "delegate*unmanaged<int *, void>".toList
      "delegate* \tunmanaged<int *, void>".toList :=
    @Respaced.after "delegate".toList "nmanaged<int *, void>".toList [] [' ', '\t'] 'u' (by decide)
      (by decide) (by decide)
  refine ⟨hgaps, ?_⟩
  rw [(pointers_spelled _).2.2.2 _ hgaps]
  decide

end Interop.Source
