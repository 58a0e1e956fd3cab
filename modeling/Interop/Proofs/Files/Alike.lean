import Interop.Proofs.Files.Changes

/-!
# Stores of one layout

Two stores are alike when they have the same directories, and files at the same places.  What a file
holds decides nothing but what is read from it, so an operation does the same in both: it returns or
fails in the same way, and leaves them alike (`save_matching`).
-/

set_option autoImplicit false

namespace Interop

/-- The same kind of thing is at a place, or nothing is. -/
inductive Entry.Alike : Option Entry → Option Entry → Prop
  | nothing : Alike none none
  | file (bytes bytes' : Text.Bytes) : Alike (some (.file bytes)) (some (.file bytes'))
  | directory : Alike (some .directory) (some .directory)

namespace Entry.Alike

theorem refl (e : Option Entry) : Entry.Alike e e := by
  rcases e with _ | (bytes | _)
  · exact .nothing
  · exact .file bytes bytes
  · exact .directory

theorem symm {e e' : Option Entry} (h : Entry.Alike e e') : Entry.Alike e' e := by
  cases h with
  | nothing => exact .nothing
  | file bytes bytes' => exact .file bytes' bytes
  | directory => exact .directory

theorem trans {e e' e'' : Option Entry} (h : Entry.Alike e e') (h' : Entry.Alike e' e'') :
    Entry.Alike e e'' := by
  cases h with
  | nothing => exact h'
  | file bytes bytes' =>
    cases h' with
    | file _ bytes'' => exact .file bytes bytes''
  | directory => exact h'

end Entry.Alike

namespace Store

open Text

/-- The working directories are the same, and the same kind of thing is at each place. -/
structure Alike (s t : Store) : Prop where
  cwd : t.cwd = s.cwd
  entries : ∀ place, Entry.Alike (s.get? place) (t.get? place)

namespace Alike

variable {s t u : Store}

theorem symm (h : Alike s t) : Alike t s := ⟨h.cwd.symm, fun place => (h.entries place).symm⟩

theorem trans (h : Alike s t) (h' : Alike t u) : Alike s u :=
  ⟨h'.cwd.trans h.cwd, fun place => (h.entries place).trans (h'.entries place)⟩

theorem keepsDirectories (h : Alike s t) : KeepsDirectories s t := by
  intro place hplace
  have hentry := h.entries place
  rw [hplace] at hentry
  generalize t.get? place = e at hentry ⊢
  cases hentry
  rfl

/-- Setting entries of one kind at a place of both. -/
theorem set (h : Alike s t) {place : Place} (hne : place ≠ []) {e e' : Entry}
    (he : Entry.Alike (some e) (some e')) : Alike (s.set place e) (t.set place e') := by
  refine ⟨h.cwd, fun other => ?_⟩
  rw [get?_set s hne, get?_set t hne]
  split
  · exact he
  · exact h.entries other

end Alike

/-- Writing over files makes no difference. -/
theorem Changes.alike {written : Place → Prop} {s t : Store}
    (h : Changes written (fun _ => False) s t)
    (hwritten : ∀ place, written place → ∃ bytes, s.get? place = some (.file bytes)) :
    Alike s t := by
  refine ⟨h.cwd, fun place => ?_⟩
  by_cases hplace : written place
  · obtain ⟨bytes, hbytes⟩ := hwritten place hplace
    obtain ⟨new, hnew⟩ := h.files place bytes hbytes
    rw [hbytes, hnew]
    exact .file bytes new
  · rcases h.kept place hplace with hsame | ⟨hway, -⟩
    · rw [hsame]
      exact .refl _
    · exact hway.elim

/-! ## Following -/

/-- Two paths lead to the same place, or end in the same way. -/
inductive Target.Alike : Target → Target → Prop
  | file (place : Place) (bytes bytes' : Bytes) :
      Alike (.found place (.file bytes)) (.found place (.file bytes'))
  | same (target : Target) : Alike target target

section Following

variable {s t : Store}

theorem follow_alike (h : Alike s t) (directory : Place) (names : List (List Char)) :
    Target.Alike (s.follow directory names) (t.follow directory names) := by
  induction names generalizing directory with
  | nil => exact .same _
  | cons name rest ih =>
    rw [follow, follow]
    by_cases hdot : name = ['.']
    · rw [if_pos hdot, if_pos hdot]
      exact ih directory
    rw [if_neg hdot, if_neg hdot]
    by_cases hup : name = ['.', '.']
    · rw [if_pos hup, if_pos hup]
      exact ih directory.dropLast
    rw [if_neg hup, if_neg hup]
    by_cases hlong : nameLimit < (encode name).length
    · rw [if_pos hlong, if_pos hlong]
      exact .same _
    rw [if_neg hlong, if_neg hlong]
    dsimp only
    have hentry := h.entries (directory ++ [name])
    generalize s.get? (directory ++ [name]) = e at hentry ⊢
    generalize t.get? (directory ++ [name]) = e' at hentry ⊢
    cases hentry with
    | nothing => exact .same _
    | file bytes bytes' =>
      dsimp only
      split
      · exact .file _ bytes bytes'
      · exact .same _
    | directory => exact ih (directory ++ [name])

/-- A path text is refused in both, or leads to the same place in both. -/
theorem locate_alike (h : Alike s t) (path : List Char) :
    (∃ e, s.locate path = .error e ∧ t.locate path = .error e)
      ∨ ∃ reached reached', s.locate path = .ok reached ∧ t.locate path = .ok reached'
        ∧ Target.Alike reached reached' := by
  unfold locate
  split
  · exact .inl ⟨_, rfl, rfl⟩
  split
  · exact .inr ⟨_, _, rfl, rfl, .same _⟩
  split
  · exact .inr ⟨_, _, rfl, rfl, .same _⟩
  · refine .inr ⟨_, _, rfl, rfl, ?_⟩
    rw [h.cwd]
    exact follow_alike h _ _

theorem entry?_alike (h : Alike s t) (path : List Char) :
    Entry.Alike (s.entry? path) (t.entry? path) := by
  unfold entry?
  rcases locate_alike h path with ⟨e, hs, ht⟩ | ⟨reached, reached', hs, ht, halike⟩
  · rw [hs, ht]
    exact .nothing
  · rw [hs, ht]
    cases halike with
    | same target => exact .refl _
    | file place bytes bytes' =>
      dsimp only
      split
      · exact .nothing
      · exact .file bytes bytes'

theorem isThere_alike (h : Alike s t) (path : List Char) : t.isThere path = s.isThere path := by
  have hentry := entry?_alike h path
  unfold isThere
  generalize s.entry? path = e at hentry ⊢
  generalize t.entry? path = e' at hentry ⊢
  cases hentry <;> rfl

theorem isDirectory_alike (h : Alike s t) (path : List Char) :
    t.isDirectory path = s.isDirectory path := by
  have hentry := entry?_alike h path
  unfold isDirectory
  generalize s.entry? path = e at hentry ⊢
  generalize t.entry? path = e' at hentry ⊢
  cases hentry <;> rfl

end Following

/-! ## Operations -/

section Operations

variable {s t : Store}

/-- Nothing is made at the top, where a directory always is. -/
theorem ne_top_of_vacant {path : List Char} {place : Place}
    (h : s.locate path = .ok (.vacant place)) : place ≠ [] := by
  rintro rfl
  have hnone := (reaches_of_locate h (.vacant [])).2.get?_vacant
  cases hnone

theorem makeDirectory_matching (h : Alike s t) (path : List Char) :
    Matching Alike (makeDirectory path s) (makeDirectory path t) := by
  have herror {e : FileError} (hs : target path s = .error e s) (ht : target path t = .error e t) :
      Matching Alike (makeDirectory path s) (makeDirectory path t) := by
    unfold makeDirectory
    rw [run_bind_error hs, run_bind_error ht]
    exact .error h
  rcases locate_alike h path with ⟨e, hs, ht⟩ | ⟨reached, reached', hs, ht, halike⟩
  · exact herror (by rw [target_eq, hs]; rfl) (by rw [target_eq, ht]; rfl)
  · cases halike with
    | file place bytes bytes' =>
      unfold makeDirectory
      rw [run_bind_ok (target_of_locate hs (.found place _)),
        run_bind_ok (target_of_locate ht (.found place _))]
      exact .error h
    | same =>
      cases reached with
      | found place entry =>
        unfold makeDirectory
        rw [run_bind_ok (target_of_locate hs (.found place _)),
          run_bind_ok (target_of_locate ht (.found place _))]
        exact .error h
      | vacant place =>
        unfold makeDirectory
        rw [run_bind_ok (target_of_locate hs (.vacant place)),
          run_bind_ok (target_of_locate ht (.vacant place))]
        exact .ok (h.set (ne_top_of_vacant hs) .directory)
      | lost => exact herror (by rw [target_eq, hs]; rfl) (by rw [target_eq, ht]; rfl)
      | blocked => exact herror (by rw [target_eq, hs]; rfl) (by rw [target_eq, ht]; rfl)
      | tooLong => exact herror (by rw [target_eq, hs]; rfl) (by rw [target_eq, ht]; rfl)

theorem ensureDirectory_matching (h : Alike s t) (path : List Char) :
    Matching Alike (ensureDirectory path s) (ensureDirectory path t) := by
  refine matching_tryCatch (makeDirectory_matching h path) fun e u v huv => ?_
  have hrun (w : Store) :
      ((do if e = .embeddedNull ∨ !(← get).isDirectory path then throw e) : Change Unit) w
        = (if e = .embeddedNull ∨ !w.isDirectory path then throw e else pure () : Change Unit) w :=
    rfl
  rw [hrun u, hrun v, isDirectory_alike huv]
  split
  · exact .error huv
  · exact .ok huv

theorem ensureDirectories_matching (steps : Nat) (h : Alike s t) (path : List Char) :
    Matching Alike (ensureDirectories steps path s) (ensureDirectories steps path t) := by
  induction steps generalizing s t path with
  | zero => exact ensureDirectory_matching h path
  | succ steps ih =>
    have hneeds : t.NeedsParent path ↔ s.NeedsParent path := by
      unfold NeedsParent
      rw [isThere_alike h]
    rw [ensureDirectories_succ, ensureDirectories_succ]
    simp only [hneeds]
    split
    · refine matching_bind ?_ fun _ u v huv => ?_
      · refine matching_tryCatch (ih h _) fun e u v huv => ?_
        cases e with
        | alreadyExists => exact .ok huv
        | _ => exact .error huv
      · split
        · exact .ok huv
        · exact ensureDirectory_matching huv path
    · exact ensureDirectory_matching h path

theorem ensureBefore_matching (h : Alike s t) (path : List Char) :
    Matching Alike (ensureBefore path s) (ensureBefore path t) := by
  unfold ensureBefore
  split
  · exact ensureDirectories_matching _ h _
  · exact .ok h

/-- Where a file can be written in the one, it can in the other. -/
theorem Writable.alike {path : List Char} {place : Place} (hw : s.Writable path place)
    (h : Alike s t) : t.Writable path place := by
  obtain ⟨reached, hlocate, hreached⟩ := hw.locate
  rcases locate_alike h path with ⟨e, hs, -⟩ | ⟨reached', reached'', hs, ht, halike⟩
  · rw [hlocate] at hs
    cases hs
  · cases Except.ok.inj (hlocate.symm.trans hs)
    refine ⟨⟨reached'', ht, ?_⟩, hw.noSlash⟩
    cases halike with
    | same => exact hreached
    | file place' bytes bytes' =>
      rcases hreached with hreached | ⟨old, hreached⟩
      · cases hreached
      · cases hreached
        exact .inr ⟨bytes', rfl⟩

/-- What is saved in the one can be saved in the other. -/
theorem save_alike (h : Alike s t) {u : Store} {path text : List Char}
    (hsave : save path text s = .ok () u) :
    ∃ v, save path text t = .ok () v ∧ Alike u v := by
  rw [save_eq] at hsave ⊢
  obtain ⟨_, s', hbefore, hwrite⟩ := run_bind_eq_ok.mp hsave
  obtain ⟨t', hbefore', h'⟩ := exists_of_matching (ensureBefore_matching h path) hbefore
  rw [run_bind_ok hbefore']
  rcases writeFile_run s' path (encode text) with ⟨place, hrun, hwritable⟩ | ⟨e, hrun⟩
  · rw [hrun] at hwrite
    cases hwrite
    refine ⟨_, writeFile_of_writable (hwritable.alike h') (encode text), ?_⟩
    exact h'.set hwritable.get?.2 (.file _ _)
  · rw [hrun] at hwrite
    cases hwrite

end Operations

end Store

end Interop
