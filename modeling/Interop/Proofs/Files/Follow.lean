import Interop.Files.Store
import Interop.Proofs.Files.Parts

/-!
# Following paths

`Reaches` says how following names can end at a place: step by step, over directories alone, with a
file or nothing at the last name.  Every fact about following is an induction on that derivation.
The place is the one that the path resolves to (`locate_at`), and resolving looks at no entry, so
comparing what two texts resolve to tells apart the places that they lead to.
-/

set_option autoImplicit false

namespace Interop.Store

open Text

/-! ## Following names -/

/-- A name that is looked up where it stands. -/
structure Plain (name : List Char) : Prop where
  not_dot : name ≠ ['.']
  not_up : name ≠ ['.', '.']
  short : ¬ nameLimit < (encode name).length

/-- Following names from a directory ends at a place, where something is or could be. -/
inductive Reaches (s : Store) : Place → List (List Char) → Target → Prop
  | here (directory : Place) : Reaches s directory [] (.found directory .directory)
  | dot {directory : Place} {rest : List (List Char)} {target : Target}
      (h : Reaches s directory rest target) : Reaches s directory (['.'] :: rest) target
  | up {directory : Place} {rest : List (List Char)} {target : Target}
      (h : Reaches s directory.dropLast rest target) :
      Reaches s directory (['.', '.'] :: rest) target
  | down {directory : Place} {name : List Char} {rest : List (List Char)} {target : Target}
      (plain : Plain name) (entry : s.get? (directory ++ [name]) = some .directory)
      (h : Reaches s (directory ++ [name]) rest target) : Reaches s directory (name :: rest) target
  | file {directory : Place} {name : List Char} {bytes : Bytes} (plain : Plain name)
      (entry : s.get? (directory ++ [name]) = some (.file bytes)) :
      Reaches s directory [name] (.found (directory ++ [name]) (.file bytes))
  | vacant {directory : Place} {name : List Char} (plain : Plain name)
      (entry : s.get? (directory ++ [name]) = none) :
      Reaches s directory [name] (.vacant (directory ++ [name]))

section Names

variable {s t : Store}

theorem follow_of_reaches {directory : Place} {names : List (List Char)} {target : Target}
    (h : Reaches s directory names target) : s.follow directory names = target := by
  induction h with
  | here directory => rfl
  | dot h ih => rw [follow, if_pos rfl, ih]
  | up h ih => rw [follow, if_neg (by decide), if_pos rfl, ih]
  | down plain entry h ih =>
    rw [follow, if_neg plain.not_dot, if_neg plain.not_up, if_neg plain.short]
    dsimp only
    rw [entry, ← ih]
  | file plain entry =>
    rw [follow, if_neg plain.not_dot, if_neg plain.not_up, if_neg plain.short]
    dsimp only
    rw [entry]
    rfl
  | vacant plain entry =>
    rw [follow, if_neg plain.not_dot, if_neg plain.not_up, if_neg plain.short]
    dsimp only
    rw [entry]
    rfl

/-- The targets that have a place. -/
inductive Target.At : Target → Place → Prop
  | found (place : Place) (entry : Entry) : At (.found place entry) place
  | vacant (place : Place) : At (.vacant place) place

theorem reaches_of_follow {directory place : Place} {names : List (List Char)}
    (h : (s.follow directory names).At place) :
    Reaches s directory names (s.follow directory names) := by
  induction names generalizing directory with
  | nil => exact .here directory
  | cons name rest ih =>
    rw [follow] at h ⊢
    by_cases hdot : name = ['.']
    · rw [if_pos hdot] at h ⊢
      exact hdot ▸ .dot (ih h)
    rw [if_neg hdot] at h ⊢
    by_cases hup : name = ['.', '.']
    · rw [if_pos hup] at h ⊢
      exact hup ▸ .up (ih h)
    rw [if_neg hup] at h ⊢
    by_cases hlong : nameLimit < (encode name).length
    · rw [if_pos hlong] at h
      cases h
    rw [if_neg hlong] at h ⊢
    have plain : Plain name := ⟨hdot, hup, hlong⟩
    dsimp only at h ⊢
    cases hget : s.get? (directory ++ [name]) with
    | none =>
      rw [hget] at h
      dsimp only at h ⊢
      by_cases hrest : rest = []
      · rw [if_pos hrest]
        exact hrest ▸ .vacant plain hget
      · rw [if_neg hrest] at h
        cases h
    | some entry =>
      rw [hget] at h
      cases entry with
      | directory => exact .down plain hget (ih h)
      -- A file is only found as the last name of a path.
      | file bytes =>
        dsimp only at h ⊢
        by_cases hrest : rest = []
        · rw [if_pos hrest]
          exact hrest ▸ .file plain hget
        · rw [if_neg hrest] at h
          cases h

/-- Following goes from place to place as resolving does, and passes over single dots. -/
theorem Reaches.place {directory place : Place} {names : List (List Char)} {target : Target}
    (h : Reaches s directory names target) (hat : target.At place) :
    place = (names.filter (· != ['.'])).foldl Path.step directory := by
  have hstep {directory : Place} {name : List Char} (plain : Plain name) :
      Path.step directory name = directory ++ [name] := by rw [Path.step, if_neg plain.not_up]
  have hkeep {name : List Char} (plain : Plain name) (rest : List (List Char)) :
      (name :: rest).filter (· != ['.']) = name :: rest.filter (· != ['.']) :=
    List.filter_cons_of_pos (by simpa using plain.not_dot)
  induction h with
  | here directory =>
    cases hat
    rfl
  | dot h ih => exact ih hat
  | up h ih => exact ih hat
  | down plain entry h ih => rw [hkeep plain, List.foldl_cons, hstep plain, ih hat]
  | file plain entry =>
    cases hat
    rw [hkeep plain, List.foldl_cons, hstep plain]
    rfl
  | vacant plain entry =>
    cases hat
    rw [hkeep plain, List.foldl_cons, hstep plain]
    rfl

theorem Reaches.get?_file {directory place : Place} {names : List (List Char)} {bytes : Bytes}
    (h : Reaches s directory names (.found place (.file bytes))) :
    s.get? place = some (.file bytes) := by
  generalize htarget : Target.found place (.file bytes) = target at h
  induction h with
  | here directory => cases htarget
  | dot h ih => exact ih htarget
  | up h ih => exact ih htarget
  | down plain entry h ih => exact ih htarget
  | file plain entry =>
    cases htarget
    exact entry
  | vacant plain entry => cases htarget

theorem Reaches.get?_vacant {directory place : Place} {names : List (List Char)}
    (h : Reaches s directory names (.vacant place)) : s.get? place = none := by
  generalize htarget : Target.vacant place = target at h
  induction h with
  | here directory => cases htarget
  | dot h ih => exact ih htarget
  | up h ih => exact ih htarget
  | down plain entry h ih => exact ih htarget
  | file plain entry => cases htarget
  | vacant plain entry =>
    cases htarget
    exact entry

/-- What is passed on the way is a directory. -/
theorem Reaches.front {directory : Place} {front back : List (List Char)} {target : Target}
    (hne : back ≠ []) (h : Reaches s directory (front ++ back) target) :
    ∃ place, Reaches s directory front (.found place .directory) := by
  generalize hnames : front ++ back = names at h
  induction h generalizing front with
  | here directory => exact absurd (List.append_eq_nil_iff.mp hnames).2 hne
  | dot h ih =>
    cases front with
    | nil => exact ⟨_, .here _⟩
    | cons name front =>
      obtain ⟨rfl, hrest⟩ := List.cons.inj hnames
      obtain ⟨place, hplace⟩ := ih hrest
      exact ⟨place, .dot hplace⟩
  | up h ih =>
    cases front with
    | nil => exact ⟨_, .here _⟩
    | cons name front =>
      obtain ⟨rfl, hrest⟩ := List.cons.inj hnames
      obtain ⟨place, hplace⟩ := ih hrest
      exact ⟨place, .up hplace⟩
  | down plain entry h ih =>
    cases front with
    | nil => exact ⟨_, .here _⟩
    | cons name front =>
      obtain ⟨rfl, hrest⟩ := List.cons.inj hnames
      obtain ⟨place, hplace⟩ := ih hrest
      exact ⟨place, .down plain entry hplace⟩
  | file plain entry =>
    cases front with
    | nil => exact ⟨_, .here _⟩
    | cons name front => exact absurd (List.append_eq_nil_iff.mp (List.cons.inj hnames).2).2 hne
  | vacant plain entry =>
    cases front with
    | nil => exact ⟨_, .here _⟩
    | cons name front => exact absurd (List.append_eq_nil_iff.mp (List.cons.inj hnames).2).2 hne

/-- A store that keeps the directories of another. -/
def KeepsDirectories (s t : Store) : Prop :=
  ∀ place, s.get? place = some .directory → t.get? place = some .directory

/-- Where a file is put, it is found. -/
theorem Reaches.file_put {directory place : Place} {names : List (List Char)} {target : Target}
    {bytes : Bytes} (hkeeps : KeepsDirectories s t) (hplace : t.get? place = some (.file bytes))
    (h : Reaches s directory names target)
    (htarget : target = .vacant place ∨ ∃ old, target = .found place (.file old)) :
    Reaches t directory names (.found place (.file bytes)) := by
  induction h with
  | here directory => rcases htarget with htarget | ⟨old, htarget⟩ <;> cases htarget
  | dot h ih => exact .dot (ih htarget)
  | up h ih => exact .up (ih htarget)
  | down plain entry h ih => exact .down plain (hkeeps _ entry) (ih htarget)
  | file plain entry =>
    rcases htarget with htarget | ⟨old, htarget⟩
    · cases htarget
    · cases htarget
      exact .file plain hplace
  | vacant plain entry =>
    rcases htarget with htarget | ⟨old, htarget⟩
    · cases htarget
      exact .file plain hplace
    · cases htarget

end Names

/-! ## Following path texts -/

theorem encode_append (a b : List Char) : encode (a ++ b) = encode a ++ encode b := by
  unfold encode
  rw [String.ofList_append, String.toUTF8_eq_toByteArray, String.toByteArray_append,
    ByteArray.toList_data_append]
  rfl

section Texts

variable {s t : Store} {path : List Char}

/-- A path text that can be followed at all. -/
structure Followable (path : List Char) : Prop where
  noNull : path.contains '\x00' = false
  nonempty : path ≠ []
  short : ¬ pathLimit < (encode path).length

theorem Followable.of_front {front : List Char} (h : Followable path) (hfront : front <+: path)
    (hne : front ≠ []) : Followable front where
  noNull := by
    have hnull := h.noNull
    rw [List.contains_eq_any_beq, List.any_eq_false] at hnull ⊢
    exact fun c hc => hnull c (hfront.subset hc)
  nonempty := hne
  short := by
    obtain ⟨back, rfl⟩ := hfront
    have hshort := h.short
    rw [encode_append, List.length_append] at hshort
    omega

theorem locate_eq (h : Followable path) (s : Store) :
    s.locate path = .ok (s.follow (Path.startOf s.cwd path) (Path.components path)) := by
  rw [locate, h.noNull, if_neg Bool.false_ne_true, if_neg h.nonempty, if_neg h.short]
  rfl

/-- A text that leads to a place can be followed, and reaches it. -/
theorem reaches_of_locate {target : Target} {place : Place} (h : s.locate path = .ok target)
    (hat : target.At place) :
    Followable path ∧ Reaches s (Path.startOf s.cwd path) (Path.components path) target := by
  have hpath : Followable path := by
    rw [locate] at h
    split at h
    · cases h
    rename_i hnull
    split at h
    · cases h
      cases hat
    rename_i hne
    split at h
    · cases h
      cases hat
    rename_i hshort
    exact ⟨by simpa using hnull, hne, hshort⟩
  refine ⟨hpath, ?_⟩
  rw [locate_eq hpath s] at h
  obtain rfl := Except.ok.inj h
  exact reaches_of_follow hat

theorem locate_of_reaches {target : Target} (hpath : Followable path)
    (h : Reaches s (Path.startOf s.cwd path) (Path.components path) target) :
    s.locate path = .ok target := by
  rw [locate_eq hpath s, follow_of_reaches h]

/-- The place that a path text leads to is the one that it resolves to. -/
theorem locate_at {target : Target} {place : Place} (h : s.locate path = .ok target)
    (hat : target.At place) : place = (Path.ofText path).resolve s.cwd := by
  obtain ⟨-, hreaches⟩ := reaches_of_locate h hat
  rw [hreaches.place hat, ← Path.namesOf_eq, Path.resolve_ofText]

end Texts

end Interop.Store
