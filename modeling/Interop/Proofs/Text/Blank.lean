import Interop.Text.Blank

/-!
# Dropping the ends of a text

What `dropWhileEnd` keeps is a beginning of the text, and all that it drops is of the class.  So a
trimmed text begins and ends visibly, and has all the visible characters that it had before.
-/

set_option autoImplicit false

namespace Interop.Text

variable {p : Char → Bool}

theorem dropWhileEnd_cons (c : Char) (t : List Char) :
    dropWhileEnd p (c :: t) =
      if dropWhileEnd p t = [] then (if p c then [] else [c]) else c :: dropWhileEnd p t := by
  rw [dropWhileEnd]
  cases dropWhileEnd p t <;> rfl

theorem dropWhileEnd_cons_of_neg {c : Char} (h : p c = false) (t : List Char) :
    dropWhileEnd p (c :: t) = c :: dropWhileEnd p t := by
  rw [dropWhileEnd_cons, h]
  split
  · next hnil => rw [hnil]; rfl
  · rfl

theorem dropWhileEnd_append (a b : List Char) :
    dropWhileEnd p (a ++ b) =
      if dropWhileEnd p b = [] then dropWhileEnd p a else a ++ dropWhileEnd p b := by
  induction a with
  | nil =>
    by_cases hb : dropWhileEnd p b = []
    · rw [if_pos hb, List.nil_append, hb]
      rfl
    · rw [if_neg hb, List.nil_append, List.nil_append]
  | cons c a ih =>
    rw [List.cons_append, dropWhileEnd_cons, ih]
    by_cases hb : dropWhileEnd p b = []
    · rw [if_pos hb, if_pos hb, dropWhileEnd_cons]
    · rw [if_neg hb, if_neg hb, if_neg (by simp [hb]), List.cons_append]

theorem dropWhileEnd_of_all {t : List Char} (h : ∀ c ∈ t, p c = true) :
    dropWhileEnd p t = [] := by
  induction t with
  | nil => rfl
  | cons c t ih =>
    rw [dropWhileEnd_cons, if_pos (ih fun x hx => h x (List.mem_cons_of_mem _ hx)),
      if_pos (h c List.mem_cons_self)]

/-- A text that ends in another character keeps its end. -/
theorem dropWhileEnd_concat {t : List Char} {c : Char} (h : p c = false) :
    dropWhileEnd p (t ++ [c]) = t ++ [c] := by
  have hc : dropWhileEnd p [c] = [c] := by
    have hnil : dropWhileEnd p [] = [] := rfl
    rw [dropWhileEnd_cons, if_pos hnil, if_neg (by simp [h])]
  rw [dropWhileEnd_append, hc, if_neg (by simp)]

/-- A text that begins and ends in other characters loses nothing. -/
theorem trimBy_eq_self {c d : Char} {rest init t : List Char} (hfirst : t = c :: rest)
    (hlast : t = init ++ [d]) (hc : p c = false) (hd : p d = false) : trimBy p t = t := by
  have hdrop : t.dropWhile p = t := by
    rw [hfirst, List.dropWhile_cons_of_neg (by simp [hc])]
  rw [trimBy, hdrop, hlast]
  exact dropWhileEnd_concat hd

theorem mem_of_mem_dropWhileEnd {t : List Char} {c : Char} (h : c ∈ dropWhileEnd p t) :
    c ∈ t := by
  induction t with
  | nil => exact h
  | cons x t ih =>
    rw [dropWhileEnd_cons] at h
    split at h
    · split at h
      · exact absurd h (by simp)
      · rw [List.mem_singleton.mp h]
        exact List.mem_cons_self
    · rcases List.mem_cons.mp h with rfl | h
      · exact List.mem_cons_self
      · exact List.mem_cons_of_mem _ (ih h)

/-- What is dropped belongs to the class. -/
theorem dropWhileEnd_spec (t : List Char) :
    ∃ dropped, t = dropWhileEnd p t ++ dropped ∧ ∀ c ∈ dropped, p c = true := by
  induction t with
  | nil => exact ⟨[], rfl, by simp⟩
  | cons c t ih =>
    obtain ⟨dropped, ht, hdropped⟩ := ih
    rw [dropWhileEnd_cons]
    split
    · rename_i hnil
      rw [hnil, List.nil_append] at ht
      split
      · rename_i hc
        exact ⟨c :: t, rfl, by rw [ht]; exact List.forall_mem_cons.mpr ⟨hc, hdropped⟩⟩
      · exact ⟨t, rfl, by rw [ht]; exact hdropped⟩
    · exact ⟨dropped, by rw [List.cons_append, ← ht], hdropped⟩

theorem last_dropWhileEnd {t init : List Char} {c : Char}
    (h : dropWhileEnd p t = init ++ [c]) : p c = false := by
  induction t generalizing init with
  | nil => exact absurd h (by simp [dropWhileEnd])
  | cons x t ih =>
    rw [dropWhileEnd_cons] at h
    split at h
    · split at h
      · exact absurd h (by simp)
      · obtain ⟨rfl, hx⟩ := List.append_inj' (show [] ++ [x] = init ++ [c] from h) rfl
        simp_all
    · cases init with
      | nil => exact absurd (List.cons.inj h).2 ‹_›
      | cons y init => exact ih (List.cons.inj h).2

theorem isSpaceOrTab_eq_false {c : Char} (h : isBlank c = false) : isSpaceOrTab c = false := by
  cases hc : isSpaceOrTab c with
  | false => rfl
  | true => exact absurd (isBlank_of_isSpaceOrTab hc) (by simp [h])

/-! ## Trimming -/

/-- A trimmed text begins visibly. -/
theorem isBlank_head {t rest : List Char} {c : Char} (h : trim t = c :: rest) :
    isBlank c = false := by
  obtain ⟨dropped, hdropped, -⟩ := dropWhileEnd_spec (p := isBlank) (t.dropWhile isBlank)
  have hhead := List.head?_dropWhile_not isBlank t
  have htrim : dropWhileEnd isBlank (t.dropWhile isBlank) = c :: rest := h
  rw [hdropped, htrim, List.cons_append, List.head?_cons] at hhead
  exact hhead

/-- A trimmed text ends visibly. -/
theorem isBlank_last {t init : List Char} {c : Char} (h : trim t = init ++ [c]) :
    isBlank c = false :=
  last_dropWhileEnd h

theorem trim_trim (t : List Char) : trim (trim t) = trim t := by
  cases htrim : trim t with
  | nil => rfl
  | cons c rest =>
    have hlast : c :: rest = (c :: rest).dropLast ++ [(c :: rest).getLast (by simp)] :=
      (List.dropLast_concat_getLast (by simp)).symm
    exact trimBy_eq_self rfl hlast (isBlank_head htrim) (isBlank_last (htrim.trans hlast))

/-- A text around a visible character is trimmed on either side of it. -/
theorem trim_append_cons {c : Char} (hc : isBlank c = false) (front back : List Char) :
    trim (front ++ c :: back) = front.dropWhile isBlank ++ c :: dropWhileEnd isBlank back := by
  have hback : dropWhileEnd isBlank (c :: back) = c :: dropWhileEnd isBlank back :=
    dropWhileEnd_cons_of_neg hc back
  have hfront : (front ++ c :: back).dropWhile isBlank = front.dropWhile isBlank ++ c :: back := by
    rw [List.dropWhile_append]
    split
    · next hnil =>
      rw [List.isEmpty_iff.mp hnil, List.dropWhile_cons_of_neg (by simp [hc]), List.nil_append]
    · rfl
  rw [trim, trimBy, hfront, dropWhileEnd_append, if_neg (by simp [hback]), hback]

/-! ## What is kept -/

theorem filter_dropWhile (t : List Char) :
    (t.dropWhile p).filter (!p ·) = t.filter (!p ·) := by
  induction t with
  | nil => rfl
  | cons c t ih =>
    by_cases hc : p c = true
    · rw [List.dropWhile_cons_of_pos hc, ih, List.filter_cons_of_neg (by simp [hc])]
    · rw [List.dropWhile_cons_of_neg hc]

theorem filter_dropWhileEnd (t : List Char) :
    (dropWhileEnd p t).filter (!p ·) = t.filter (!p ·) := by
  obtain ⟨dropped, ht, hdropped⟩ := dropWhileEnd_spec (p := p) t
  have hnone : dropped.filter (!p ·) = [] := by
    rw [List.filter_eq_nil_iff]
    intro c hc
    simp [hdropped c hc]
  have hfilter := congrArg (List.filter (!p ·)) ht
  rw [List.filter_append, hnone, List.append_nil] at hfilter
  exact hfilter.symm

theorem filter_trimBy (t : List Char) : (trimBy p t).filter (!p ·) = t.filter (!p ·) := by
  rw [trimBy, filter_dropWhileEnd, filter_dropWhile]

end Interop.Text
