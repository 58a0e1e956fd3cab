import Interop.Files.Path
import Interop.Proofs.Text.Blank
import Interop.Proofs.Text.Lines

/-!
# The parts of a path text

A path text is followed name by name (`components`), and what it says as a path is the same list
without the single dots.  Cutting a text at its last slash cuts this list: what stands before the
slash leads to the same places by the same names (`components_split`).
-/

set_option autoImplicit false

namespace Interop.Path

open Text

/-- The names that a path text is made of, single dots included. -/
def components (t : List Char) : List (List Char) := (splitOn '/' t).filter (!·.isEmpty)

theorem namesOf_eq (t : List Char) : namesOf t = (components t).filter (· != ['.']) := by
  rw [namesOf, components, List.filter_filter]
  congr 1
  funext name
  exact Bool.and_comm _ _

theorem components_slash (t : List Char) : components ('/' :: t) = components t := by
  rw [components, splitOn_cons, if_pos rfl]
  rfl

theorem components_append_slash (a b : List Char) :
    components (a ++ '/' :: b) = components a ++ components b := by
  rw [components, splitOn_append, List.filter_append]
  rfl

theorem components_slashes_append {slashes : List Char} (h : ∀ c ∈ slashes, c = '/')
    (t : List Char) : components (slashes ++ t) = components t := by
  induction slashes with
  | nil => rfl
  | cons c slashes ih =>
    obtain ⟨rfl, hrest⟩ := List.forall_mem_cons.mp h
    rw [List.cons_append, components_slash, ih hrest]

theorem components_slashes {slashes : List Char} (h : ∀ c ∈ slashes, c = '/') :
    components slashes = [] := by
  have happend := components_slashes_append h []
  rwa [List.append_nil] at happend

/-- A name without slashes is a part of its own. -/
theorem components_append_slashes {slashes : List Char} (h : ∀ c ∈ slashes, c = '/')
    (hne : slashes ≠ []) (a b : List Char) :
    components (a ++ slashes ++ b) = components a ++ components b := by
  cases slashes with
  | nil => exact absurd rfl hne
  | cons c slashes =>
    obtain ⟨rfl, hrest⟩ := List.forall_mem_cons.mp h
    rw [List.append_assoc, List.cons_append, components_append_slash,
      components_slashes_append hrest]

theorem components_of_notMem {name : List Char} (h : '/' ∉ name) (hne : name ≠ []) :
    components name = [name] := by
  rw [components, splitOn_of_notMem h]
  cases name with
  | nil => exact absurd rfl hne
  | cons _ _ => rfl

/-! ## Cutting at the last slash -/

/-- What `split` makes of a text: a head, slashes and a tail.  There are no slashes between the two
only if the head has nothing but slashes itself. -/
structure Cut (t head slashes tail : List Char) : Prop where
  text : t = head ++ slashes ++ tail
  between : ∀ c ∈ slashes, c = '/'
  last : '/' ∉ tail
  first : slashes ≠ [] ∨ ∀ c ∈ head, c = '/'

/-- The tail is what follows the last slash. -/
theorem split_tail (t : List Char) :
    ∃ front, t = front ++ (split t).2 ∧ '/' ∉ (split t).2
      ∧ (front = [] ∨ ∃ before, front = before ++ ['/'])
      ∧ (split t).1 = if front.all (· == '/') then front else dropWhileEnd (· == '/') front := by
  -- `split` counts from the end, so the parts are looked at in the reversed text.
  let front := (t.reverse.dropWhile (· != '/')).reverse
  let tail := (t.reverse.takeWhile (· != '/')).reverse
  have htext : t = front ++ tail := by
    rw [← List.reverse_append, List.takeWhile_append_dropWhile, List.reverse_reverse]
  have htake : t.take (t.length - tail.length) = front := by
    have hlength : t.length - tail.length = front.length := by
      rw [htext, List.length_append, Nat.add_sub_cancel]
    rw [hlength]
    calc t.take front.length = (front ++ tail).take front.length := by rw [← htext]
      _ = front := List.take_left
  refine ⟨front, htext, ?_, ?_, ?_⟩
  · intro hslash
    have hall := List.all_eq_true.mp (List.all_takeWhile (p := (· != '/')) (l := t.reverse))
    simpa using hall '/' (List.mem_reverse.mp hslash)
  · cases hd : t.reverse.dropWhile (· != '/') with
    | nil => exact .inl (congrArg List.reverse hd)
    | cons c rest =>
      have hhead := List.head?_dropWhile_not (· != '/') t.reverse
      rw [hd] at hhead
      have hc : c = '/' := by simpa using hhead
      refine .inr ⟨rest.reverse, ?_⟩
      rw [← hc, ← List.reverse_cons]
      exact congrArg List.reverse hd
  · have hhead : (split t).1 = if (t.take (t.length - tail.length)).all (· == '/')
        then t.take (t.length - tail.length)
        else dropWhileEnd (· == '/') (t.take (t.length - tail.length)) := rfl
    rw [hhead, htake]

theorem split_cut (t : List Char) : ∃ slashes, Cut t (split t).1 slashes (split t).2 := by
  obtain ⟨front, htext, hlast, hfront, hhead⟩ := split_tail t
  by_cases hall : front.all (· == '/') = true
  · rw [if_pos hall] at hhead
    refine ⟨[], by rw [hhead, List.append_nil, ← htext], by simp, hlast, .inr ?_⟩
    rw [hhead]
    simpa using hall
  · rw [if_neg hall] at hhead
    obtain ⟨dropped, hdrop, hslashes⟩ := dropWhileEnd_spec (p := (· == '/')) front
    refine ⟨dropped, by rw [hhead, ← hdrop, ← htext], by simpa using hslashes, hlast, .inl ?_⟩
    rintro rfl
    rcases hfront with rfl | ⟨before, rfl⟩
    · exact hall rfl
    · -- The slash at the end would not have been dropped.
      obtain ⟨dropped, hbefore, -⟩ := dropWhileEnd_spec (p := (· == '/')) before
      have hsame : dropWhileEnd (· == '/') (before ++ ['/']) = dropWhileEnd (· == '/') before := by
        have hslash : dropWhileEnd (· == '/') ['/'] = [] := rfl
        rw [dropWhileEnd_append, if_pos hslash]
      have hlength := congrArg List.length hdrop
      have hlength' := congrArg List.length hbefore
      rw [hsame] at hlength
      simp only [List.length_append, List.length_cons, List.length_nil] at hlength hlength'
      omega

theorem components_split (t : List Char) :
    components t = components (split t).1 ++ components (split t).2 := by
  obtain ⟨slashes, hcut⟩ := split_cut t
  by_cases hne : slashes = []
  · subst hne
    have hslashes := hcut.first.resolve_left (fun h => h rfl)
    calc components t = components ((split t).1 ++ (split t).2) := by
          rw [← List.append_nil (split t).1, ← hcut.text]
      _ = components (split t).1 ++ components (split t).2 := by
          rw [components_slashes_append hslashes, components_slashes hslashes, List.nil_append]
  · calc components t = components ((split t).1 ++ slashes ++ (split t).2) :=
          congrArg components hcut.text
      _ = components (split t).1 ++ components (split t).2 :=
          components_append_slashes hcut.between hne _ _

theorem split_front (t : List Char) : (split t).1 <+: t := by
  obtain ⟨slashes, hcut⟩ := split_cut t
  exact ⟨slashes ++ (split t).2, by rw [← List.append_assoc, ← hcut.text]⟩

/-- A path text without its last name, and that name; slashes at the end do not count. -/
def parent (t : List Char) : List Char × List Char :=
  if (split t).2 = [] then split (split t).1 else split t

theorem parent_front (t : List Char) : (parent t).1 <+: t := by
  unfold parent
  split
  · exact (split_front _).trans (split_front t)
  · exact split_front t

theorem components_parent (t : List Char) :
    components t = components (parent t).1 ++ components (parent t).2 := by
  unfold parent
  split
  · rename_i htail
    rw [← components_split, components_split t, htail]
    exact List.append_nil _
  · exact components_split t

/-- Without a slash at its end, a text has a last name. -/
theorem split_tail_ne_nil {t : List Char} (hne : t ≠ []) (hend : t.getLast? ≠ some '/') :
    (split t).2 ≠ [] := by
  intro htail
  obtain ⟨slashes, hcut⟩ := split_cut t
  have htext := hcut.text
  rw [htail, List.append_nil] at htext
  have hlast (front : List Char) (ss : List Char) (hss : ∀ c ∈ ss, c = '/') (hne : ss ≠ []) :
      (front ++ ss).getLast? = some '/' := by
    have hmem := List.getLast_mem hne
    rw [List.getLast?_append, List.getLast?_eq_some_getLast hne, hss _ hmem]
    rfl
  by_cases hslashes : slashes = []
  · have hall := hcut.first.resolve_left (fun h => h hslashes)
    rw [hslashes, List.append_nil] at htext
    refine hend ?_
    have hsame := hlast [] (split t).1 hall (fun h => hne (htext.trans h))
    rwa [List.nil_append, ← htext] at hsame
  · refine hend ?_
    rw [htext]
    exact hlast _ _ hcut.between hslashes

/-! ## Resolving -/

/-- The place where following a path text begins. -/
def startOf (cwd : Place) (t : List Char) : Place := if t.head? = some '/' then [] else cwd

theorem anchorOf_eq_here {t : List Char} : anchorOf t = .here ↔ t.head? ≠ some '/' := by
  unfold anchorOf
  cases t with
  | nil => simp
  | cons c t =>
    by_cases hc : c = '/'
    · subst hc
      rw [List.takeWhile_cons_of_pos rfl, List.length_cons]
      split
      · omega
      · simp
      · simp
    · have hkeep : ¬ (c == '/') = true := by simpa using hc
      rw [List.takeWhile_cons_of_neg (p := (· == '/')) hkeep]
      simpa using hc

/-- A text leads from its start by the names of its path. -/
theorem resolve_names (cwd : Place) (t : List Char) (names : List (List Char)) :
    Path.resolve cwd { ofText t with names } = names.foldl step (startOf cwd t) := by
  have hstart : (if anchorOf t = .here then cwd else []) = startOf cwd t := by
    unfold startOf
    by_cases h : t.head? = some '/'
    · rw [if_pos h, if_neg (fun ha => anchorOf_eq_here.mp ha h)]
    · rw [if_neg h, if_pos (anchorOf_eq_here.mpr h)]
  exact congrArg (names.foldl step) hstart

theorem resolve_ofText (cwd : Place) (t : List Char) :
    (ofText t).resolve cwd = (namesOf t).foldl step (startOf cwd t) :=
  resolve_names cwd t (namesOf t)

theorem startOf_of_front {front t : List Char} (h : front <+: t) (hne : front ≠ [])
    (cwd : Place) : startOf cwd front = startOf cwd t := by
  obtain ⟨rest, rfl⟩ := h
  cases front with
  | nil => exact absurd rfl hne
  | cons c front => rfl

/-! ## The text of a path -/

theorem mem_namesOf {t name : List Char} (h : name ∈ namesOf t) :
    name ≠ [] ∧ name ≠ ['.'] ∧ '/' ∉ name := by
  obtain ⟨hmem, hkeep⟩ := List.mem_filter.mp h
  have hkeep' : name ≠ [] ∧ name ≠ ['.'] := by simpa using hkeep
  exact ⟨hkeep'.1, hkeep'.2, (mem_splitOn hmem).1⟩

theorem components_joinWith {names : List (List Char)}
    (h : ∀ name ∈ names, name ≠ [] ∧ '/' ∉ name) : components (joinWith ['/'] names) = names := by
  by_cases hne : names = []
  · subst hne
    rfl
  · rw [components, splitOn_joinWith hne fun name hname => (h name hname).2]
    refine List.filter_eq_self.mpr fun name hname => ?_
    have hname' := (h name hname).1
    simpa using hname'

theorem head?_joinWith {names : List (List Char)}
    (h : ∀ name ∈ names, name ≠ [] ∧ '/' ∉ name) : (joinWith ['/'] names).head? ≠ some '/' := by
  cases names with
  | nil => simp [joinWith]
  | cons name rest =>
    obtain ⟨⟨hne, hslash⟩, -⟩ := List.forall_mem_cons.mp h
    cases name with
    | nil => exact absurd rfl hne
    | cons c name =>
      have hhead : (joinWith ['/'] ((c :: name) :: rest)).head? = some c := by
        cases rest with
        | nil => rfl
        | cons _ _ => rfl
      rw [hhead]
      rintro ⟨⟩
      exact hslash List.mem_cons_self

/-- The text of a path says what the path does. -/
theorem ofText_toText {p : Path} (h : ∀ name ∈ p.names, name ≠ [] ∧ name ≠ ['.'] ∧ '/' ∉ name) :
    ofText p.toText = p := by
  obtain ⟨anchor, names⟩ := p
  have hplain (name : List Char) (hname : name ∈ names) : name ≠ [] ∧ '/' ∉ name :=
    ⟨(h name hname).1, (h name hname).2.2⟩
  have hdots : names.filter (· != ['.']) = names := by
    refine List.filter_eq_self.mpr fun name hname => ?_
    simpa using (h name hname).2.1
  have hfirst : (joinWith ['/'] names).takeWhile (· == '/') = [] := by
    have hhead := head?_joinWith hplain
    cases hjoined : joinWith ['/'] names with
    | nil => rfl
    | cons c rest =>
      rw [hjoined] at hhead
      exact List.takeWhile_cons_of_neg (by simpa using hhead)
  -- Slashes in front of the names say where the path begins, and nothing else.
  have hread (front : List Char) (hfront : ∀ c ∈ front, c = '/')
      (hanchor : anchorOf front = anchor) :
      ofText (front ++ joinWith ['/'] names) = ⟨anchor, names⟩ := by
    have hall : ∀ c ∈ front, (c == '/') = true := by simpa using hfront
    have hslashes (rest : List Char) (hrest : rest.takeWhile (· == '/') = []) :
        (front ++ rest).takeWhile (· == '/') = front := by
      rw [List.takeWhile_append_of_pos hall, hrest, List.append_nil]
    have hsame : anchorOf (front ++ joinWith ['/'] names) = anchorOf (front ++ []) := by
      rw [anchorOf, anchorOf, hslashes _ hfirst, hslashes [] rfl]
    rw [List.append_nil, hanchor] at hsame
    rw [ofText, hsame, namesOf_eq, components_slashes_append hfront, components_joinWith hplain,
      hdots]
  unfold toText
  split
  · rename_i hempty
    obtain ⟨rfl, rfl⟩ := hempty
    rfl
  · cases anchor with
    | here => exact hread [] (by simp) rfl
    | root => exact hread ['/'] (by simp) rfl
    | doubleRoot => exact hread ['/', '/'] (by simp) rfl

/-- The text of a path leads where the path does. -/
theorem resolve_toText (cwd : Place) (t : List Char) :
    (ofText (ofText t).toText).resolve cwd = (ofText t).resolve cwd := by
  rw [ofText_toText fun _ hname => mem_namesOf hname]

/-! ## Stems -/

/-- A stem is the name itself, or the name up to a dot that begins its last suffix. -/
theorem stemOf_cases (name : List Char) :
    stemOf name = name ∨ stemOf name ≠ []
      ∧ ∃ suffix, '.' ∉ suffix ∧ name = stemOf name ++ '.' :: suffix := by
  have hsplit := List.takeWhile_append_dropWhile (p := (· != '.')) (l := name.reverse)
  have hnodot : '.' ∉ name.reverse.takeWhile (· != '.') := by
    intro hdot
    have hall := List.all_eq_true.mp (List.all_takeWhile (p := (· != '.')) (l := name.reverse))
    simpa using hall '.' hdot
  unfold stemOf
  split
  · exact .inl rfl
  · rename_i dot before hdrop
    split
    · exact .inl rfl
    · rename_i hinner
      have hdot : dot = '.' := by
        have hhead := List.head?_dropWhile_not (· != '.') name.reverse
        rw [hdrop] at hhead
        simpa using hhead
      refine .inr ⟨fun hnil => hinner (.inl (List.reverse_eq_nil_iff.mp hnil)),
        (name.reverse.takeWhile (· != '.')).reverse, by simpa using hnodot, ?_⟩
      rw [hdrop, hdot] at hsplit
      simpa using (congrArg List.reverse hsplit).symm

theorem stemOf_ne_nil {name : List Char} (h : name ≠ []) : stemOf name ≠ [] := by
  rcases stemOf_cases name with hsame | ⟨hne, -⟩
  · rwa [hsame]
  · exact hne

theorem mem_of_mem_stemOf {name : List Char} {c : Char} (h : c ∈ stemOf name) : c ∈ name := by
  rcases stemOf_cases name with hsame | ⟨-, suffix, -, hname⟩
  · rwa [hsame] at h
  · rw [hname]
    exact List.mem_append_left _ h

/-! ## Places on the way -/

/-- Some first names of a path lead to the place. -/
def Passes (cwd : Place) (p : Path) (place : Place) : Prop :=
  ∃ names, names <+: p.names ∧ place = Path.resolve cwd { p with names }

theorem passes_resolve (cwd : Place) (p : Path) : Passes cwd p (p.resolve cwd) :=
  ⟨p.names, List.prefix_rfl, rfl⟩

/-- Whatever the beginning of a text passes, the text passes. -/
theorem Passes.of_front {cwd : Place} {front t : List Char} (hfront : front <+: t)
    (hne : front ≠ []) (hcomponents : components front <+: components t) {place : Place}
    (h : Passes cwd (ofText front) place) : Passes cwd (ofText t) place := by
  obtain ⟨names, hnames, rfl⟩ := h
  refine ⟨names, ?_, ?_⟩
  · have hnamesOf : namesOf front <+: namesOf t := by
      rw [namesOf_eq, namesOf_eq]
      exact hcomponents.filter _
    exact hnames.trans hnamesOf
  · rw [resolve_names, resolve_names, startOf_of_front hfront hne]

end Interop.Path
