import Interop.Proofs.Files.Follow
import Interop.Proofs.Running

/-!
# What operations on files change

Saving a text writes one file and makes directories that were missing on the way to it.  `Changes`
says this of any two stores, and composes; files stay files all along.  Saving the same text again,
where the first time succeeded, changes nothing (`save_again`).  Where it fails, it is not for a null
character unless the path has one (`save_failing`).
-/

set_option autoImplicit false

namespace Interop.Store

open Text

/-! ## Changes -/

/-- One store has come from another: what was written may be different, and directories may have
come up on the way. -/
structure Changes (written way : Place → Prop) (s t : Store) : Prop where
  cwd : t.cwd = s.cwd
  kept : ∀ place, ¬ written place → t.get? place = s.get? place
    ∨ (way place ∧ s.get? place = none ∧ t.get? place = some .directory)
  files : ∀ place bytes, s.get? place = some (.file bytes) →
    ∃ new, t.get? place = some (.file new)

namespace Changes

variable {written written' way way' : Place → Prop} {s t u : Store}

theorem refl (s : Store) : Changes written way s s where
  cwd := rfl
  kept _ _ := .inl rfl
  files _ bytes h := ⟨bytes, h⟩

theorem trans (h : Changes written way s t) (h' : Changes written way t u) :
    Changes written way s u where
  cwd := h'.cwd.trans h.cwd
  kept place hplace := by
    rcases h.kept place hplace with hsame | ⟨hway, hnone, hmade⟩
    · rw [← hsame]
      exact h'.kept place hplace
    · refine .inr ⟨hway, hnone, ?_⟩
      rcases h'.kept place hplace with hsame | ⟨-, hnone', -⟩
      · rw [hsame, hmade]
      · rw [hmade] at hnone'
        cases hnone'
  files place bytes hfile := by
    obtain ⟨new, hnew⟩ := h.files place bytes hfile
    exact h'.files place new hnew

theorem mono (h : Changes written way s t) (hwritten : ∀ p, written p → written' p)
    (hway : ∀ p, way p → way' p) : Changes written' way' s t where
  cwd := h.cwd
  kept place hplace := by
    rcases h.kept place (fun hw => hplace (hwritten place hw)) with hsame | ⟨hw, hrest⟩
    · exact .inl hsame
    · exact .inr ⟨hway place hw, hrest⟩
  files := h.files

/-- Directories stay, unless something is written over them. -/
theorem keepsDirectories (h : Changes written way s t)
    (hwritten : ∀ place, written place → s.get? place ≠ some .directory) :
    KeepsDirectories s t := by
  intro place hplace
  rcases h.kept place (fun hw => hwritten place hw hplace) with hsame | ⟨-, hnone, -⟩
  · rw [hsame, hplace]
  · rw [hplace] at hnone
    cases hnone

/-- A file that is not written over stays as it is. -/
theorem file_kept (h : Changes written way s t) {place : Place} {bytes : Bytes}
    (hplace : ¬ written place) (hfile : s.get? place = some (.file bytes)) :
    t.get? place = some (.file bytes) := by
  rcases h.kept place hplace with hsame | ⟨-, hnone, -⟩
  · rw [hsame, hfile]
  · rw [hfile] at hnone
    cases hnone

end Changes

/-- Only directories on the way are made. -/
abbrev Makes (way : Place → Prop) : Store → Store → Prop := Changes (fun _ => False) way

theorem makes_set {s : Store} {place : Place} {way : Place → Prop} (hnone : s.get? place = none)
    (hway : way place) : Makes way s (s.set place .directory) := by
  have hne : place ≠ [] := by
    rintro rfl
    cases hnone
  refine ⟨rfl, fun p _ => ?_, fun p bytes hfile => ?_⟩
  · rw [get?_set s hne]
    by_cases hp : p = place
    · subst hp
      rw [if_pos rfl]
      exact .inr ⟨hway, hnone, rfl⟩
    · rw [if_neg hp]
      exact .inl rfl
  · rw [get?_set s hne]
    by_cases hp : p = place
    · subst hp
      rw [hnone] at hfile
      cases hfile
    · rw [if_neg hp]
      exact ⟨bytes, hfile⟩

theorem changes_set_file {s : Store} {place : Place} {way : Place → Prop} {bytes : Bytes}
    (hne : place ≠ []) : Changes (· = place) way s (s.set place (.file bytes)) := by
  refine ⟨rfl, fun p hp => ?_, fun p old hfile => ?_⟩
  · rw [get?_set s hne, if_neg hp]
    exact .inl rfl
  · rw [get?_set s hne]
    by_cases hp : p = place
    · rw [if_pos hp]
      exact ⟨bytes, rfl⟩
    · rw [if_neg hp]
      exact ⟨old, hfile⟩

/-! ## Appending -/

theorem get?_set_of_ne (s : Store) {place other : Place} (h : other ≠ place) (entry : Entry) :
    (s.set place entry).get? other = s.get? other := by
  simp [get?, set, lookup_setEntry, h]

theorem appendAt_changes (s : Store) (place : Place) (bytes : Bytes) {way : Place → Prop} :
    Changes (· = place) way s (s.appendAt place bytes) := by
  have hset (new : Bytes) : Changes (· = place) way s (s.set place (.file new)) := by
    by_cases hne : place = []
    · subst hne
      have hget (p : Place) : (s.set [] (.file new)).get? p = s.get? p := by
        by_cases hp : p = []
        · subst hp
          rfl
        · exact get?_set_of_ne s hp _
      exact ⟨rfl, fun p _ => .inl (hget p), fun p old hold => ⟨old, (hget p).trans hold⟩⟩
    · exact changes_set_file hne
  unfold appendAt
  split
  · exact hset _
  · exact hset _

/-- What is in a file stays at its beginning. -/
def Grows (s t : Store) : Prop :=
  ∀ place old, s.get? place = some (.file old) →
    ∃ more, t.get? place = some (.file (old ++ more))

theorem Grows.refl (s : Store) : Grows s s :=
  fun _ old hold => ⟨[], by rw [hold, List.append_nil]⟩

theorem Grows.trans {s t u : Store} (h : Grows s t) (h' : Grows t u) : Grows s u := by
  intro place old hold
  obtain ⟨more, hmore⟩ := h place old hold
  obtain ⟨more', hmore'⟩ := h' place _ hmore
  exact ⟨more ++ more', by rw [hmore', List.append_assoc]⟩

theorem appendAt_grows (s : Store) (place : Place) (bytes : Bytes) :
    Grows s (s.appendAt place bytes) := by
  intro other old hold
  by_cases hplace : other = place
  · subst hplace
    have hne : other ≠ [] := by
      rintro rfl
      cases hold
    refine ⟨bytes, ?_⟩
    unfold appendAt
    rw [hold]
    dsimp only
    rw [get?_set s hne, if_pos rfl]
  · refine ⟨[], ?_⟩
    rw [List.append_nil, ← hold]
    unfold appendAt
    split
    · exact get?_set_of_ne s hplace _
    · exact get?_set_of_ne s hplace _

/-! ## Directories -/

section Directories

variable {s : Store} {path : List Char}

theorem target_eq (s : Store) (path : List Char) :
    target path s = (match s.locate path with
      | .error e => throw e
      | .ok .lost => throw (.notFound path)
      | .ok .blocked => throw (.notADirectory path)
      | .ok .tooLong => throw (.nameTooLong path)
      | .ok t => return t : Change Target) s := rfl

/-- Where a path leads to a place, that is its target. -/
theorem target_of_locate {reached : Target} {place : Place}
    (hlocate : s.locate path = .ok reached) (hat : reached.At place) :
    target path s = .ok reached s := by
  rw [target_eq, hlocate]
  cases hat <;> rfl

/-- Looking where a path leads changes nothing. -/
theorem target_run (s : Store) (path : List Char) :
    (∃ reached place, target path s = .ok reached s ∧ s.locate path = .ok reached
      ∧ reached.At place) ∨ ∃ e, target path s = .error e s := by
  rw [target_eq]
  cases h : s.locate path with
  | error e => exact .inr ⟨e, rfl⟩
  | ok reached =>
    cases reached with
    | found place entry => exact .inl ⟨_, place, rfl, rfl, .found place entry⟩
    | vacant place => exact .inl ⟨_, place, rfl, rfl, .vacant place⟩
    | lost => exact .inr ⟨_, rfl⟩
    | blocked => exact .inr ⟨_, rfl⟩
    | tooLong => exact .inr ⟨_, rfl⟩

theorem makeDirectory_makes (s : Store) (path : List Char) :
    Makes (Path.Passes s.cwd (Path.ofText path)) s (after (makeDirectory path s)) := by
  unfold makeDirectory
  rcases target_run s path with ⟨reached, place, hrun, hlocate, hat⟩ | ⟨e, hrun⟩
  · rw [run_bind_ok hrun]
    cases hat with
    | found place entry => exact .refl s
    | vacant place =>
      obtain ⟨-, hreaches⟩ := reaches_of_locate hlocate (.vacant place)
      have hplace := locate_at hlocate (.vacant place)
      exact makes_set hreaches.get?_vacant (hplace ▸ Path.passes_resolve s.cwd _)
  · rw [run_bind_error hrun]
    exact .refl s

theorem ensureDirectory_makes (s : Store) (path : List Char) :
    Makes (Path.Passes s.cwd (Path.ofText path)) s (after (ensureDirectory path s)) := by
  unfold ensureDirectory
  refine after_tryCatch (fun _ _ _ => .trans) (makeDirectory_makes s path) fun e t _ => ?_
  have hrun : ((do if e = .embeddedNull ∨ !(← get).isDirectory path then throw e) : Change Unit) t
      = (if e = .embeddedNull ∨ !t.isDirectory path then throw e else pure () : Change Unit) t := rfl
  rw [hrun]
  split
  · exact .refl t
  · exact .refl t

/-- Whether a directory before the last name has to be made first. -/
def NeedsParent (s : Store) (path : List Char) : Prop :=
  (Path.parent path).1 ≠ [] ∧ (Path.parent path).2 ≠ []
    ∧ (!s.isThere (Path.parent path).1) = true

instance (s : Store) (path : List Char) : Decidable (s.NeedsParent path) :=
  inferInstanceAs (Decidable (_ ∧ _ ∧ _))

/-- Makes what stands before the last name; it may be there by now. -/
def ensureParent (steps : Nat) (path : List Char) : Change Unit :=
  tryCatch (ensureDirectories steps (Path.parent path).1) fun
    | .alreadyExists _ => return
    | e => throw e

theorem ensureDirectories_succ (steps : Nat) (path : List Char) (s : Store) :
    ensureDirectories (steps + 1) path s =
      if s.NeedsParent path then
        (ensureParent steps path >>= fun _ =>
          if (Path.parent path).2 = ['.'] then pure () else ensureDirectory path) s
      else ensureDirectory path s := by
  rw [ensureDirectories]
  unfold ensureParent
  have hparent : Path.parent path =
      (if (Path.split path).2 = [] then Path.split (Path.split path).1 else Path.split path) := rfl
  generalize Path.split path = cut at hparent ⊢
  obtain ⟨head, tail⟩ := cut
  dsimp only at hparent ⊢
  rw [← hparent]
  show (if s.NeedsParent path then _ else _ : Change Unit) s = _
  by_cases h : s.NeedsParent path
  · exact (congrFun (if_pos h) s).trans (if_pos h).symm
  · exact (congrFun (if_neg h) s).trans (if_neg h).symm

theorem ensureDirectories_makes (steps : Nat) (s : Store) (path : List Char) :
    Makes (Path.Passes s.cwd (Path.ofText path)) s (after (ensureDirectories steps path s)) := by
  induction steps generalizing s path with
  | zero => exact ensureDirectory_makes s path
  | succ steps ih =>
    rw [ensureDirectories_succ]
    split
    · rename_i hneeds
      have hpasses {place : Place}
          (h : Path.Passes s.cwd (Path.ofText (Path.parent path).1) place) :
          Path.Passes s.cwd (Path.ofText path) place := by
        refine h.of_front (Path.parent_front path) hneeds.1 ?_
        rw [Path.components_parent path]
        exact List.prefix_append _ _
      have hparent := (ih s (Path.parent path).1).mono (fun _ h => h) fun _ => hpasses
      have hensure : Makes (Path.Passes s.cwd (Path.ofText path)) s
          (after (ensureParent steps path s)) := by
        refine after_tryCatch (fun _ _ _ => .trans) hparent fun e t _ => ?_
        cases e <;> exact .refl t
      refine after_bind (fun _ _ _ => .trans) hensure fun _ t _ hmade => ?_
      split
      · exact .refl t
      · exact hmade.cwd ▸ ensureDirectory_makes t path
    · exact ensureDirectory_makes s path

/-- A directory is found at the path. -/
theorem isDirectory_iff : s.isDirectory path = true ↔
    ∃ place, s.locate path = .ok (.found place .directory) := by
  unfold isDirectory entry?
  constructor
  · intro h
    split at h
    · split at h <;> cases h
    · rename_i place hlocate
      exact ⟨place, hlocate⟩
    · cases h
  · rintro ⟨place, hlocate⟩
    rw [hlocate]
    rfl

/-- What a path passes before it ends somewhere is a directory. -/
theorem isDirectory_front {front : List Char} {back : List (List Char)} {place : Place}
    {entry : Entry} (hfront : front <+: path) (hne : front ≠ [])
    (hcomponents : Path.components path = Path.components front ++ back)
    (hlocate : s.locate path = .ok (.found place entry))
    (hback : back ≠ [] ∨ entry = .directory) : s.isDirectory front = true := by
  obtain ⟨hpath, hreaches⟩ := reaches_of_locate hlocate (.found place entry)
  rw [hcomponents, ← Path.startOf_of_front hfront hne] at hreaches
  have hfollowable := hpath.of_front hfront hne
  by_cases hnil : back = []
  · rw [hnil, List.append_nil, hback.resolve_left (fun h => h hnil)] at hreaches
    exact isDirectory_iff.mpr ⟨place, locate_of_reaches hfollowable hreaches⟩
  · obtain ⟨middle, hmiddle⟩ := hreaches.front hnil
    exact isDirectory_iff.mpr ⟨middle, locate_of_reaches hfollowable hmiddle⟩

/-- Where a directory is, none is made. -/
theorem ensureDirectory_again (h : s.isDirectory path = true) :
    ensureDirectory path s = .ok () s := by
  obtain ⟨place, hlocate⟩ := isDirectory_iff.mp h
  have hmake : makeDirectory path s = .error (.alreadyExists path) s := by
    unfold makeDirectory
    rw [run_bind_ok (target_of_locate hlocate (.found ..))]
    rfl
  unfold ensureDirectory
  rw [run_tryCatch_error hmake]
  show (if FileError.alreadyExists path = .embeddedNull ∨ !s.isDirectory path then _
    else pure () : Change Unit) s = _
  rw [if_neg (by simp [h])]
  rfl

theorem ensureDirectories_again (steps : Nat) (h : s.isDirectory path = true) :
    ensureDirectories steps path s = .ok () s := by
  cases steps with
  | zero => exact ensureDirectory_again h
  | succ steps =>
    rw [ensureDirectories_succ, if_neg]
    · exact ensureDirectory_again h
    · rintro ⟨hne, -, hmissing⟩
      obtain ⟨place, hlocate⟩ := isDirectory_iff.mp h
      have hparent := isDirectory_front (Path.parent_front path) hne
        (Path.components_parent path) hlocate (.inr rfl)
      have hthere : s.isThere (Path.parent path).1 = true := by
        unfold isDirectory at hparent
        rw [isThere, eq_of_beq hparent]
        rfl
      rw [hthere] at hmissing
      cases hmissing

end Directories

/-! ## Files -/

section Files

variable {s t : Store} {path text : List Char} {place : Place}

/-- A file can be written at the path: one is there, or nothing is. -/
structure Writable (s : Store) (path : List Char) (place : Place) : Prop where
  locate : ∃ reached, s.locate path = .ok reached
    ∧ (reached = .vacant place ∨ ∃ old, reached = .found place (.file old))
  noSlash : endsInSlash path = false

/-- The file that is found at the path holds these bytes. -/
structure Holds (s : Store) (path : List Char) (bytes : Bytes) : Prop where
  locate : s.locate path = .ok (.found ((Path.ofText path).resolve s.cwd) (.file bytes))
  noSlash : endsInSlash path = false

theorem Writable.place_eq (h : s.Writable path place) :
    place = (Path.ofText path).resolve s.cwd := by
  obtain ⟨reached, hlocate, hreached⟩ := h.locate
  rcases hreached with rfl | ⟨old, rfl⟩
  · exact locate_at hlocate (.vacant place)
  · exact locate_at hlocate (.found place _)

/-- There is no directory where a file can be written, and it is not the top. -/
theorem Writable.get? (h : s.Writable path place) :
    s.get? place ≠ some .directory ∧ place ≠ [] := by
  have htop : s.get? [] = some .directory := rfl
  have hget : s.get? place ≠ some .directory := by
    obtain ⟨reached, hlocate, hreached⟩ := h.locate
    rcases hreached with rfl | ⟨old, rfl⟩
    · rw [(reaches_of_locate hlocate (.vacant place)).2.get?_vacant]
      simp
    · rw [(reaches_of_locate hlocate (.found place _)).2.get?_file]
      simp
  refine ⟨hget, ?_⟩
  rintro rfl
  exact hget htop

theorem Holds.writable {bytes : Bytes} (h : s.Holds path bytes) :
    s.Writable path ((Path.ofText path).resolve s.cwd) :=
  ⟨⟨_, h.locate, .inr ⟨bytes, rfl⟩⟩, h.noSlash⟩

theorem Holds.get? {bytes : Bytes} (h : s.Holds path bytes) :
    s.get? ((Path.ofText path).resolve s.cwd) = some (.file bytes) :=
  (reaches_of_locate h.locate (.found ..)).2.get?_file

/-- A path that a file can be written at holds what has been put there. -/
theorem Writable.holds {bytes : Bytes} (h : s.Writable path place) (hcwd : t.cwd = s.cwd)
    (hkeeps : KeepsDirectories s t) (hplace : t.get? place = some (.file bytes)) :
    t.Holds path bytes := by
  obtain ⟨reached, hlocate, hreached⟩ := h.locate
  have hat : reached.At place := by
    rcases hreached with rfl | ⟨old, rfl⟩
    · exact .vacant place
    · exact .found place _
  obtain ⟨hpath, hreaches⟩ := reaches_of_locate hlocate hat
  have hput := hreaches.file_put hkeeps hplace hreached
  rw [← hcwd] at hput
  refine ⟨?_, h.noSlash⟩
  rw [hcwd, ← h.place_eq]
  exact locate_of_reaches hpath hput

/-- Putting into a file what it holds changes nothing. -/
theorem Holds.set_changes {bytes : Bytes} (h : s.Holds path bytes) {written way : Place → Prop} :
    Changes written way s (s.set ((Path.ofText path).resolve s.cwd) (.file bytes)) := by
  have hget (p : Place) :
      (s.set ((Path.ofText path).resolve s.cwd) (.file bytes)).get? p = s.get? p := by
    rw [get?_set s h.writable.get?.2]
    split
    · rename_i hp
      rw [hp, h.get?]
    · rfl
  exact ⟨rfl, fun p _ => .inl (hget p), fun p old hold => ⟨old, (hget p).trans hold⟩⟩

theorem Holds.kept {old bytes : Bytes} (h : s.Holds path old) (hcwd : t.cwd = s.cwd)
    (hkeeps : KeepsDirectories s t)
    (hplace : t.get? ((Path.ofText path).resolve s.cwd) = some (.file bytes)) :
    t.Holds path bytes :=
  h.writable.holds hcwd hkeeps hplace

/-- Reading and finding a file are the same. -/
theorem readFile?_eq_some {bytes : Bytes} :
    s.readFile? path = .ok (some bytes) ↔ s.Holds path bytes := by
  constructor
  · intro h
    unfold readFile? entry? at h
    cases hlocate : s.locate path with
    | error e =>
      rw [hlocate] at h
      cases h
    | ok reached =>
      rw [hlocate] at h
      cases reached with
      | found place entry =>
        cases entry with
        | directory => cases h
        | file old =>
          cases hslash : endsInSlash path with
          | true =>
            rw [hslash] at h
            cases h
          | false =>
            rw [hslash] at h
            cases h
            exact ⟨locate_at hlocate (.found place _) ▸ hlocate, hslash⟩
      | vacant place => cases h
      | lost => cases h
      | blocked => cases h
      | tooLong => cases h
  · intro h
    unfold readFile? entry?
    rw [h.locate, h.noSlash]
    rfl

theorem writeFile_of_writable (h : s.Writable path place) (bytes : Bytes) :
    writeFile path bytes s = .ok () (s.set place (.file bytes)) := by
  obtain ⟨reached, hlocate, hreached⟩ := h.locate
  have hopen : ∃ old, openFile path s = .ok (place, old) s := by
    unfold openFile
    rcases hreached with rfl | ⟨old, rfl⟩
    · rw [run_bind_ok (target_of_locate hlocate (.vacant place))]
      exact ⟨none, by rw [h.noSlash]; rfl⟩
    · rw [run_bind_ok (target_of_locate hlocate (.found place _))]
      exact ⟨some old, by rw [h.noSlash]; rfl⟩
  obtain ⟨old, hopen⟩ := hopen
  unfold writeFile
  rw [run_bind_ok hopen]
  rfl

/-- Opening a file for writing changes nothing, and shows that the path can be written at. -/
theorem openFile_run (s : Store) (path : List Char) :
    (∃ place old, openFile path s = .ok (place, old) s ∧ s.Writable path place)
      ∨ ∃ e, openFile path s = .error e s := by
  unfold openFile
  rcases target_run s path with ⟨reached, place, hrun, hlocate, hat⟩ | ⟨e, hrun⟩
  · rw [run_bind_ok hrun]
    cases hslash : endsInSlash path with
    | true =>
      refine .inr ⟨.isADirectory path, ?_⟩
      cases hat with
      | found place entry => cases entry <;> rfl
      | vacant place => rfl
    | false =>
      cases hat with
      | vacant place => exact .inl ⟨place, none, rfl, ⟨_, hlocate, .inl rfl⟩, hslash⟩
      | found place entry =>
        cases entry with
        | directory => exact .inr ⟨_, rfl⟩
        | file old => exact .inl ⟨place, some old, rfl, ⟨_, hlocate, .inr ⟨old, rfl⟩⟩, hslash⟩
  · rw [run_bind_error hrun]
    exact .inr ⟨e, rfl⟩

theorem writeFile_run (s : Store) (path : List Char) (bytes : Bytes) :
    (∃ place, writeFile path bytes s = .ok () (s.set place (.file bytes))
      ∧ s.Writable path place) ∨ ∃ e, writeFile path bytes s = .error e s := by
  rcases openFile_run s path with ⟨place, old, hrun, hwritable⟩ | ⟨e, hrun⟩
  · exact .inl ⟨place, writeFile_of_writable hwritable bytes, hwritable⟩
  · refine .inr ⟨e, ?_⟩
    unfold writeFile
    rw [run_bind_error hrun]

/-! ## Saving -/

/-- Makes the directories before a file. -/
def ensureBefore (path : List Char) : Change Unit :=
  if Path.directoryOf path ≠ [] then
    ensureDirectories (Path.directoryOf path).length (Path.directoryOf path)
  else pure ()

theorem save_eq (path text : List Char) :
    save path text = (ensureBefore path >>= fun _ => writeFile path (encode text)) := by
  unfold save ensureBefore
  dsimp only
  split
  · rfl
  · rfl

theorem ensureBefore_makes (s : Store) (path : List Char) :
    Makes (Path.Passes s.cwd (Path.ofText path)) s (after (ensureBefore path s)) := by
  unfold ensureBefore
  split
  · rename_i hne
    refine (ensureDirectories_makes _ s _).mono (fun _ h => h) fun place hplace => ?_
    refine hplace.of_front (Path.split_front path) hne ?_
    rw [Path.components_split path]
    exact List.prefix_append _ _
  · exact .refl s

/-- Saving writes one file, and makes directories on the way. -/
theorem save_changes (s : Store) (path text : List Char) :
    Changes (· = (Path.ofText path).resolve s.cwd) (Path.Passes s.cwd (Path.ofText path)) s
      (after (save path text s)) := by
  have hbefore := ensureBefore_makes s path
  rw [save_eq]
  refine after_bind (fun _ _ _ => .trans) (hbefore.mono (fun _ h => h.elim) fun _ h => h)
    fun _ u _ hmade => ?_
  have hcwd : u.cwd = s.cwd := hmade.cwd
  rcases writeFile_run u path (encode text) with ⟨place, hrun, hwritable⟩ | ⟨e, hrun⟩
  · rw [hrun, ← hcwd, ← hwritable.place_eq]
    exact changes_set_file hwritable.get?.2
  · rw [hrun]
    exact .refl u

/-- Where saving succeeds, the path holds the text, and no directory is lost. -/
theorem save_ok (h : save path text s = .ok () t) :
    t.Holds path (encode text) ∧ KeepsDirectories s t := by
  rw [save_eq] at h
  obtain ⟨_, u, hbefore, hwrite⟩ := run_bind_eq_ok.mp h
  have hmakes := ensureBefore_makes s path
  rw [hbefore] at hmakes
  rcases writeFile_run u path (encode text) with ⟨place, hrun, hwritable⟩ | ⟨e, hrun⟩
  · rw [hrun] at hwrite
    cases hwrite
    obtain ⟨hdirectory, hne⟩ := hwritable.get?
    have hchanges : Changes (· = place) (fun _ => False) u (u.set place (.file (encode text))) :=
      changes_set_file hne
    have hkeeps := hchanges.keepsDirectories (by rintro _ rfl; exact hdirectory)
    have hput : (u.set place (.file (encode text))).get? place = some (.file (encode text)) := by
      rw [get?_set u hne, if_pos rfl]
    refine ⟨hwritable.holds hchanges.cwd hkeeps hput, fun p hp => hkeeps p ?_⟩
    exact hmakes.keepsDirectories (fun _ h => h.elim) p hp
  · rw [hrun] at hwrite
    cases hwrite

/-- Where a file is, saving writes over it and does nothing else. -/
theorem save_again {old : Bytes} (h : s.Holds path old) (text : List Char) :
    save path text s =
      .ok () (s.set ((Path.ofText path).resolve s.cwd) (.file (encode text))) := by
  have hbefore : ensureBefore path s = .ok () s := by
    unfold ensureBefore
    split
    · rename_i hne
      have hpath := (reaches_of_locate h.locate (.found ..)).1
      have htail : Path.components (Path.split path).2 ≠ [] := by
        have hlast : path.getLast? ≠ some '/' := by
          have hslash := h.noSlash
          unfold endsInSlash at hslash
          intro heq
          rw [heq] at hslash
          cases hslash
        have hname := Path.split_tail_ne_nil hpath.nonempty hlast
        obtain ⟨slashes, hcut⟩ := Path.split_cut path
        rw [Path.components_of_notMem hcut.last hname]
        simp
      refine ensureDirectories_again _ ?_
      exact isDirectory_front (Path.split_front path) hne (Path.components_split path) h.locate
        (.inl htail)
    · rfl
  rw [save_eq, run_bind_ok hbefore]
  exact writeFile_of_writable h.writable (encode text)

end Files

/-! ## Errors -/

section Errors

variable {path : List Char}

/-- A path without null characters can be looked at. -/
theorem target_failing (h : '\x00' ∉ path) : Failing (target path) (· ≠ .embeddedNull) := by
  intro s e t hrun
  rw [target_eq] at hrun
  have hlocate : ∃ reached, s.locate path = .ok reached := by
    unfold locate
    rw [if_neg (by simpa using h)]
    split
    · exact ⟨_, rfl⟩
    · split
      · exact ⟨_, rfl⟩
      · exact ⟨_, rfl⟩
  obtain ⟨reached, hreached⟩ := hlocate
  rw [hreached] at hrun
  cases reached with
  | found place entry => cases hrun
  | vacant place => cases hrun
  | lost =>
    cases hrun
    exact nofun
  | blocked =>
    cases hrun
    exact nofun
  | tooLong =>
    cases hrun
    exact nofun

theorem makeDirectory_failing (h : '\x00' ∉ path) :
    Failing (makeDirectory path) (· ≠ .embeddedNull) := by
  refine (target_failing h).bind fun reached _ _ _ => ?_
  cases reached with
  | vacant place => exact Failing.modify _
  | _ => exact Failing.throw nofun

theorem ensureDirectory_failing (h : '\x00' ∉ path) :
    Failing (ensureDirectory path) (· ≠ .embeddedNull) := by
  refine Failing.tryCatch (makeDirectory_failing h) fun e he => Failing.get fun s => ?_
  split
  · exact Failing.throw he
  · exact Failing.pure ()

theorem ensureDirectories_failing (steps : Nat) (h : '\x00' ∉ path) :
    Failing (ensureDirectories steps path) (· ≠ .embeddedNull) := by
  induction steps generalizing path with
  | zero => exact ensureDirectory_failing h
  | succ steps ih =>
    have hparent : Failing (ensureParent steps path) (· ≠ .embeddedNull) := by
      have hfront : '\x00' ∉ (Path.parent path).1 := fun hmem =>
        h ((Path.parent_front path).subset hmem)
      refine Failing.tryCatch (ih hfront) fun e he => ?_
      cases e with
      | alreadyExists path => exact Failing.pure ()
      | _ => exact Failing.throw he
    have hlast : Failing (ensureParent steps path >>= fun _ =>
        if (Path.parent path).2 = ['.'] then pure () else ensureDirectory path)
        (· ≠ .embeddedNull) := by
      refine hparent.bind fun _ _ _ _ => ?_
      split
      · exact Failing.pure ()
      · exact ensureDirectory_failing h
    intro s e t hrun
    rw [ensureDirectories_succ] at hrun
    split at hrun
    · exact hlast s e t hrun
    · exact ensureDirectory_failing h s e t hrun

theorem openFile_failing (h : '\x00' ∉ path) :
    Failing (openFile path) (· ≠ .embeddedNull) := by
  refine (target_failing h).bind fun reached _ _ _ => ?_
  have hend (result : Place × Option Bytes) :
      Failing (if endsInSlash path then throw (.isADirectory path) else return result : Change _)
        (· ≠ .embeddedNull) := by
    split
    · exact Failing.throw nofun
    · exact Failing.pure result
  cases reached with
  | found place entry =>
    cases entry with
    | file bytes => exact hend (place, some bytes)
    | directory => exact Failing.throw nofun
  | vacant place => exact hend (place, none)
  | _ => exact Failing.throw nofun

/-- A path without null characters never fails for the sake of one. -/
theorem save_failing (h : '\x00' ∉ path) (text : List Char) :
    Failing (save path text) (· ≠ .embeddedNull) := by
  have hbefore : Failing (ensureBefore path) (· ≠ .embeddedNull) := by
    have hfront : '\x00' ∉ Path.directoryOf path := fun hmem =>
      h ((Path.split_front path).subset hmem)
    unfold ensureBefore
    split
    · exact ensureDirectories_failing _ hfront
    · exact Failing.pure ()
  rw [save_eq]
  refine hbefore.bind fun _ _ _ _ => (openFile_failing h).bind fun opened _ _ _ => ?_
  exact Failing.modify _

end Errors

end Interop.Store
