import Interop.Proofs.Binding.Demand
import Interop.Proofs.Number.Text
import Interop.Proofs.Text.Blank
import Interop.Proofs.Text.Lines
import Interop.Source.Unit

/-!
# The characters of a line

A line of a declaration is put together from strings of the bindings, numbers, and words and marks
of its own.  The latter are all among the characters from the space to the letter z.  So what is true
of these and of the characters of the strings is true of the characters of the line: a class that
holds them (`Inked`) holds all of the line (`fieldDeclaration_chars`, for one).  Two classes matter
below: the characters that break no line, and those that are no brace either.
-/

set_option autoImplicit false

namespace Interop.Source

open Binding Text

/-- Every character of the text belongs to the class. -/
def Chars (P : Char → Prop) (t : List Char) : Prop := ∀ c ∈ t, P c

/-- The characters from the space to the letter z, which have no braces among them. -/
def isInk (c : Char) : Bool := 32 ≤ c.toNat && c.toNat ≤ 122

/-- A class with all these characters. -/
def Inked (P : Char → Prop) : Prop := ∀ c, isInk c = true → P c

variable {P : Char → Prop}

@[simp] theorem chars_append {a b : List Char} : Chars P (a ++ b) ↔ Chars P a ∧ Chars P b := by
  simp only [Chars, List.mem_append, or_imp, forall_and]

@[simp] theorem chars_cons {c : Char} {t : List Char} : Chars P (c :: t) ↔ P c ∧ Chars P t := by
  simp only [Chars, List.mem_cons, or_imp, forall_and, forall_eq]

theorem Chars.mono {a b : List Char} (hb : Chars P b) (h : ∀ c ∈ a, c ∈ b) : Chars P a :=
  fun c hc => hb c (h c hc)

theorem Chars.joinWith {separator : List Char} {pieces : List (List Char)}
    (hs : Chars P separator) (h : ∀ piece ∈ pieces, Chars P piece) :
    Chars P (joinWith separator pieces) := by
  intro c hc
  rcases mem_joinWith hc with hc | ⟨piece, hmem, hc⟩
  · exact hs c hc
  · exact h piece hmem c hc

/-- A text that is written as it stands. -/
theorem Inked.fixed (hP : Inked P) {t : List Char} (h : t.all isInk = true) : Chars P t :=
  fun c hc => hP c (List.all_eq_true.mp h c hc)

/-- What is asked of bindings whose names have characters of the class only. -/
def charsIn (P : Char → Prop) : Demand where
  name s := Chars P s.toList
  nativeName s := Chars P s.toList
  typeName s := Chars P s.toList
  comment _ := True
  memberName s := Chars P s.toList
  memberValue _ := True
  convention _ := True
  number _ := True

/-- The keywords of elements have characters of the class only. -/
def KeywordsIn (P : Char → Prop) (elements : ElementTable) : Prop :=
  ∀ entry ∈ elements, Chars P entry.2.toList

theorem elementKeyword?_mem {elements : ElementTable} {name : List Char} {keyword : String}
    (h : elementKeyword? elements name = some keyword) : ∃ entry ∈ elements, entry.2 = keyword := by
  rw [elementKeyword?, List.lookup_eq_some_iff] at h
  obtain ⟨before, after, rfl, _⟩ := h
  exact ⟨(String.ofList (trim name), keyword), by simp, rfl⟩

/-! ## Types -/

theorem mem_dropBlanksBeforeStars {t : List Char} {c : Char} (h : c ∈ dropBlanksBeforeStars t) :
    c ∈ t := by
  induction t with
  | nil => exact h
  | cons x t ih =>
    simp only [dropBlanksBeforeStars] at h
    split at h
    · exact List.mem_cons_of_mem _ (ih h)
    · rcases List.mem_cons.mp h with rfl | h
      · exact List.mem_cons_self
      · exact List.mem_cons_of_mem _ (ih h)

theorem mem_spaceAfterStar {t : List Char} {c : Char} (h : c ∈ spaceAfterStar t) :
    c = ' ' ∨ c ∈ t := by
  unfold spaceAfterStar at h
  split at h
  · exact Or.inr h
  · rename_i x next hdrop
    have hmem (y : Char) (hy : y ∈ x :: next) : y ∈ t :=
      (List.dropWhile_sublist _).subset (hdrop ▸ hy)
    split at h
    · rcases List.mem_cons.mp h with h | h
      · exact Or.inl h
      · exact Or.inr (hmem c h)
    · split at h
      · exact Or.inr (hmem c h)
      · exact Or.inr h

theorem mem_spaceAfterStars {t : List Char} {c : Char} (h : c ∈ spaceAfterStars t) :
    c = ' ' ∨ c ∈ t := by
  induction t with
  | nil => exact Or.inr h
  | cons x t ih =>
    simp only [spaceAfterStars] at h
    split at h
    · rename_i hx
      rcases List.mem_cons.mp h with rfl | h
      · exact Or.inr (by simp [hx])
      · rcases mem_spaceAfterStar h with h | h
        · exact Or.inl h
        · exact (ih h).imp_right (List.mem_cons_of_mem _)
    · rcases List.mem_cons.mp h with rfl | h
      · exact Or.inr List.mem_cons_self
      · exact (ih h).imp_right (List.mem_cons_of_mem _)

/-- Setting the stars of a type brings in nothing but spaces. -/
theorem mem_normalizePointers {t : List Char} {c : Char} (h : c ∈ normalizePointers t) :
    c = ' ' ∨ c ∈ t := by
  refine (mem_spaceAfterStars h).imp_right fun h => ?_
  exact (List.dropWhile_sublist _).subset (mem_of_mem_dropWhileEnd (mem_dropBlanksBeforeStars h))

/-! ## Parts of a line -/

section Parts

variable (hP : Inked P)
include hP

theorem Inked.numeral {c : Char} (h : Number.isNumeralChar c = true) : P c := by
  rcases Bool.or_eq_true_iff.mp h with h | h
  · simp only [Char.isDigit, Bool.and_eq_true, decide_eq_true_eq, UInt32.le_iff_toNat_le] at h
    have hfirst : 48 ≤ c.toNat := h.1
    have hlast : c.toNat ≤ 57 := h.2
    refine hP c ?_
    simp only [isInk, Bool.and_eq_true, decide_eq_true_eq]
    omega
  · have hsigns : Chars P ['-', '+', '.', 'e', 'i', 'n', 'f', 'a'] := hP.fixed (by decide)
    exact hsigns c (List.contains_iff_mem.mp h)

theorem text_chars (n : Number) : Ends n.text (Chars P) fun _ => True where
  result h c hc := hP.numeral ((Number.text_ends n).result h c hc)
  failure _ := trivial

theorem numberText_chars (n : Number) : Ends (numberText n) (Chars P) fun _ => True :=
  Ends.mapError (text_chars hP n)

theorem declaration_chars {Q : EmissionError → Prop} {type : Value} {s name : String}
    (ht : type = .text s) (hs : Chars P s.toList) (hn : Chars P name.toList) :
    Ends (faulty (declaration type name)) (Chars P) Q := by
  rw [ht]
  refine Ends.ok ?_
  rw [chars_append, chars_cons]
  refine ⟨fun c hc => ?_, hP _ (by decide), hn⟩
  rcases mem_normalizePointers hc with rfl | hc
  · exact hP _ (by decide)
  · exact hs c hc

theorem parameterText_chars {Q : EmissionError → Prop} {p : Parameter} (h : p.Meets (charsIn P)) :
    Ends (parameterText p) (Chars P) Q := by
  obtain ⟨s, hs, hchars⟩ := h.type.name
  refine (declaration_chars hP hs hchars h.name).bind fun t ht => Ends.ok ?_
  split
  · exact chars_append.mpr ⟨hP.fixed (by decide), ht⟩
  · exact ht

theorem conventionName_chars (convention : Decl.CallingConvention) :
    Ends (conventionName convention) (fun s => Chars P s.toList) fun _ => True := by
  cases convention with
  | c => exact Ends.ok (hP.fixed (by decide))
  | unknown => exact Ends.ok (hP.fixed (by decide))
  | other name => exact Ends.error trivial

theorem wrapperName_chars {f : Field} (h : f.Meets (charsIn P)) :
    Chars P (wrapperName f).toList := by
  rw [wrapperName, String.toList_ofList, chars_append, chars_cons]
  refine ⟨⟨hP _ (by decide), ?_⟩, hP.fixed (by decide)⟩
  split
  · exact h.name.mono fun c hc => (List.dropWhile_sublist _).subset hc
  · exact h.nativeName

/-- The attribute of a field begins with a bracket. -/
theorem placement_chars (offset size padding : Number) :
    Ends (faulty ((offsetAttribute offset size padding).mapError .number))
      (fun t => Chars P t ∧ ∃ rest, t = '[' :: rest) fun _ => True := by
  refine (Ends.bind (text_chars hP offset) fun o ho => ?_).mapError.mapError
  refine (text_chars hP size).bind fun s hs => (text_chars hP padding).bind fun p hp => Ends.ok ?_
  simp only [List.append_assoc, chars_append]
  exact ⟨⟨hP.fixed (by decide), ho, hP.fixed (by decide), hs, hP.fixed (by decide), hp⟩, _, rfl⟩

end Parts

/-! ## Fields -/

/-- Whether a field of a type with a name needs a wrapper is never at fault. -/
theorem needsWrapper_ok (elements : ElementTable) {f : Field} {s : String} (h : f.type.name = .text s) :
    ∃ needed, needsWrapper elements f = .ok needed := by
  unfold needsWrapper
  rw [h]
  split
  · exact ⟨true, rfl⟩
  · split
    · exact ⟨_, rfl⟩
    · exact ⟨false, rfl⟩

/-- All that can fail is the text of the count. -/
theorem fieldDeclaration_chars (hP : Inked P) {elements : ElementTable} (hk : KeywordsIn P elements)
    {f : Field} (h : f.Meets (charsIn P)) :
    Ends (fieldDeclaration elements f) (Chars P)
      fun e => ∃ n, f.type.count = some n ∧ numberText n = .error e := by
  obtain ⟨s, hs, hchars⟩ := h.type.name
  obtain ⟨needed, hneeded⟩ := needsWrapper_ok elements hs
  have hkeyword : elementKeyword elements f.type.name = .ok (elementKeyword? elements s.toList) := by
    rw [hs]
    rfl
  rw [fieldDeclaration, hneeded]
  cases needed with
  | true => exact declaration_chars hP rfl (wrapperName_chars hP h) h.name
  | false =>
    cases hcount : f.type.count with
    | none => exact declaration_chars hP hs hchars h.name
    | some n =>
      have hword : Chars P ((elementKeyword? elements s.toList).getD "None").toList := by
        cases hw : elementKeyword? elements s.toList with
        | none => exact hP.fixed (by decide : "None".toList.all isInk = true)
        | some keyword =>
          obtain ⟨entry, hmem, rfl⟩ := elementKeyword?_mem hw
          exact hk entry hmem
      have hnumber : Ends (numberText n) (Chars P)
          fun e => ∃ m, some n = some m ∧ numberText m = .error e :=
        ⟨fun ht => (numberText_chars hP n).result ht, fun he => ⟨n, rfl, he⟩⟩
      rw [hkeyword]
      refine hnumber.bind fun count hcount => Ends.ok ?_
      simp only [chars_append, chars_cons]
      exact ⟨⟨⟨⟨hP.fixed (by decide), hword⟩, hP _ (by decide), h.name⟩, hP _ (by decide),
        hcount⟩, hP _ (by decide), fun _ hc => absurd hc (by simp)⟩

/-! The fields of a wrapper have numbers for names and the type of an element. -/

theorem slotName_chars (hP : Inked P) (index : Nat) : Chars P ("_" ++ Nat.repr index).toList := by
  rw [String.toList_append, chars_append]
  refine ⟨hP.fixed (by decide), fun c hc => ?_⟩
  have hdigit : c ∈ Number.natDigits index := by simpa [Nat.repr, Number.natDigits] using hc
  exact hP.numeral (Number.isNumeralChar_of_isDigit (Number.isDigit_of_mem_natDigits hdigit))

theorem slot_meets {d : Demand} {t : TypeUse} (h : t.Meets d) (hn : ∀ n, d.number n)
    (hname : ∀ index : Nat, d.name ("_" ++ Nat.repr index)) (hnative : d.nativeName "")
    (size : Number) (index : Nat) :
    Ends (faulty (slot t size index)) (Field.Meets d) fun _ => True where
  result {f} hf := by
    obtain ⟨offset, _, hf⟩ := bind_eq_ok.mp (mapError_eq_ok.mp hf)
    obtain rfl := Except.ok.inj hf
    exact ⟨hname index, hnative, ⟨h.name, hn _, h.alignOf, fun _ hc => absurd hc (by simp)⟩, hn _,
      hn _⟩
  failure _ := trivial

end Interop.Source
