import Interop.Proofs.Failing
import Interop.Proofs.Files.Alike
import Interop.Session

/-!
# What logging changes

A journal writes to the files of its handlers and to no others (`remark_logs`), and only at their ends
(`remark_grows`).  A session whose log files are there (`LogsReady`) keeps them, and what holds of all
other files.
-/

set_option autoImplicit false

namespace Interop

/-- Surroundings without home directories, a configuration file or terminals. -/
def Surroundings.bare : Surroundings where
  moment := .epoch
  homes := ⟨none, none, []⟩
  room := 1000
  configPath := []
  outputIsTerminal := false
  errorsIsTerminal := false

/-- The file that a sink writes to. -/
def Log.Sink.place? : Log.Sink → Option Place
  | .textFile place => some place
  | .jsonFile place => some place
  | _ => none

/-- The log files of a journal. -/
def Log.Journal.places (j : Log.Journal) : List Place := j.handlers.filterMap (·.sink.place?)

namespace Session

open Text

/-- One session has come from another; its log files may have grown meanwhile. -/
structure Changes (written way : Place → Prop) (s t : Session) : Prop where
  journal : t.journal = s.journal
  files : Store.Changes (fun p => written p ∨ p ∈ s.journal.places) way s.files t.files

variable {written written' way way' : Place → Prop} {s t u : Session}

namespace Changes

theorem refl (s : Session) : Changes written way s s := ⟨rfl, .refl _⟩

theorem trans (h : Changes written way s t) (h' : Changes written way t u) :
    Changes written way s u where
  journal := h'.journal.trans h.journal
  files := by
    have hfiles := h'.files
    rw [h.journal] at hfiles
    exact h.files.trans hfiles

theorem mono (h : Changes written way s t) (hwritten : ∀ p, written p → written' p)
    (hway : ∀ p, way p → way' p) : Changes written' way' s t where
  journal := h.journal
  files := h.files.mono (fun p hp => hp.imp (hwritten p) fun h => h) hway

end Changes

/-- Nothing but the log files has changed. -/
abbrev Logs : Session → Session → Prop := Changes (fun _ => False) fun _ => False

/-- Every log file is there. -/
def LogsReady (s : Session) : Prop :=
  ∀ place ∈ s.journal.places, ∃ bytes, s.files.get? place = some (.file bytes)

theorem LogsReady.changes (h : LogsReady s) (hst : Changes written way s t) : LogsReady t := by
  intro place hplace
  rw [hst.journal] at hplace
  obtain ⟨bytes, hbytes⟩ := h place hplace
  exact hst.files.files place bytes hbytes

theorem Logs.keepsDirectories (h : Logs s t) (hready : LogsReady s) :
    Store.KeepsDirectories s.files t.files := by
  refine h.files.keepsDirectories ?_
  rintro place (hplace | hplace) hdirectory
  · exact hplace
  · obtain ⟨bytes, hbytes⟩ := hready place hplace
    rw [hdirectory] at hbytes
    cases hbytes

/-- Logging adds to files that are there, and changes no layout. -/
theorem Logs.alike (h : Logs s t) (hready : LogsReady s) : Store.Alike s.files t.files := by
  refine h.files.alike ?_
  rintro place (hplace | hplace)
  · exact hplace.elim
  · exact hready place hplace

/-- Logging leaves alone what is no log file. -/
theorem Logs.get?_eq (h : Logs s t) {place : Place} (hplace : place ∉ s.journal.places) :
    t.files.get? place = s.files.get? place := by
  rcases h.files.kept place (fun hw => hw.elim (fun h => h) hplace) with hsame | ⟨hway, -⟩
  · exact hsame
  · exact hway.elim

theorem Logs.holds (h : Logs s t) (hready : LogsReady s) {path : List Char} {bytes : Bytes}
    (hplace : (Path.ofText path).resolve s.files.cwd ∉ s.journal.places)
    (hholds : s.files.Holds path bytes) : t.files.Holds path bytes := by
  refine hholds.kept h.files.cwd (h.keepsDirectories hready) ?_
  rw [h.get?_eq hplace, hholds.get?]

/-! ## Another file -/

/-- The session with these bytes in a file. -/
def putFile (s : Session) (place : Place) (bytes : Bytes) : Session :=
  { s with files := s.files.set place (.file bytes) }

theorem putFile_changes {place : Place} (hne : place ≠ []) (bytes : Bytes) :
    Changes (· = place) way s (s.putFile place bytes) :=
  ⟨rfl, (Store.changes_set_file hne).mono (fun _ h => .inl h) fun _ h => h⟩

/-- A file that is put in the place of another can be read where that one was. -/
theorem putFile_holds {path : List Char} {old : Bytes} (h : s.files.Holds path old)
    (bytes : Bytes) :
    (s.putFile ((Path.ofText path).resolve s.files.cwd) bytes).files.Holds path bytes
      ∧ Store.Alike s.files (s.putFile ((Path.ofText path).resolve s.files.cwd) bytes).files := by
  have hne := h.writable.get?.2
  have halike : Store.Alike s.files
      (s.files.set ((Path.ofText path).resolve s.files.cwd) (.file bytes)) := by
    refine ⟨rfl, fun place => ?_⟩
    rw [Store.get?_set s.files hne]
    split
    · rename_i hplace
      rw [hplace, h.get?]
      exact .file old bytes
    · exact .refl _
  refine ⟨h.kept rfl halike.keepsDirectories ?_, halike⟩
  show (s.files.set _ _).get? _ = _
  rw [Store.get?_set s.files hne, if_pos rfl]

/-! ## Records -/

theorem deliver_logs {d : Log.Delivery}
    (h : ∀ place text, d = .file place text → place ∈ s.journal.places) :
    Logs s (s.deliver d) := by
  cases d with
  | output text => exact ⟨rfl, .refl _⟩
  | errors text => exact ⟨rfl, .refl _⟩
  | file place text =>
    refine ⟨rfl, (Store.appendAt_changes s.files place (encode text)).mono ?_ fun _ h => h⟩
    rintro p rfl
    exact .inr (h p text rfl)

/-- A journal delivers to its own log files. -/
theorem mem_places_of_deliveries {j : Log.Journal} {r : Log.Record} {place : Place}
    {text : List Char} (h : .file place text ∈ j.deliveries r) : place ∈ j.places := by
  unfold Log.Journal.deliveries at h
  split at h
  · cases h
  · split at h
    · split at h
      · simp at h
      · cases h
    · obtain ⟨handler, hmem, hdeliver⟩ := List.mem_map.mp h
      refine List.mem_filterMap.mpr ⟨handler, (List.mem_filter.mp hmem).1, ?_⟩
      cases hsink : handler.sink with
      | output coloured => simp [hsink, Log.Sink.deliver] at hdeliver
      | errors coloured => simp [hsink, Log.Sink.deliver] at hdeliver
      | textFile p =>
        rw [hsink] at hdeliver
        cases hdeliver
        rfl
      | jsonFile p =>
        rw [hsink] at hdeliver
        cases hdeliver
        rfl

theorem deliver_all_logs (ds : List Log.Delivery)
    (h : ∀ place text, .file place text ∈ ds → place ∈ s.journal.places) :
    Logs s (ds.foldl deliver s) := by
  induction ds generalizing s with
  | nil => exact .refl s
  | cons d ds ih =>
    have hfirst : Logs s (s.deliver d) := by
      refine deliver_logs fun place text hd => h place text ?_
      rw [hd]
      exact List.mem_cons_self
    refine hfirst.trans (ih fun place text hmem => ?_)
    rw [hfirst.journal]
    exact h place text (List.mem_cons_of_mem _ hmem)

theorem remark_logs (s : Session) (r : Log.Remark) : Logs s (s.remark r) := by
  unfold remark
  split
  · exact deliver_all_logs _ fun place text hmem => mem_places_of_deliveries hmem
  · exact .refl s

theorem remarks_logs (s : Session) (remarks : List Log.Remark) :
    Logs s (remarks.foldl remark s) := by
  induction remarks generalizing s with
  | nil => exact .refl s
  | cons r remarks ih => exact (remark_logs s r).trans (ih _)

/-! ## What is added -/

theorem deliver_grows (s : Session) (d : Log.Delivery) :
    Store.Grows s.files (s.deliver d).files := by
  cases d with
  | output text => exact .refl _
  | errors text => exact .refl _
  | file place text => exact Store.appendAt_grows s.files place (encode text)

theorem remark_grows (s : Session) (r : Log.Remark) : Store.Grows s.files (s.remark r).files := by
  have hall (ds : List Log.Delivery) (u : Session) :
      Store.Grows u.files (ds.foldl deliver u).files := by
    induction ds generalizing u with
    | nil => exact .refl _
    | cons d ds ih => exact (deliver_grows u d).trans (ih _)
  unfold remark
  split
  · exact hall _ s
  · exact .refl _

/-- What logging leaves of one session in another: nothing but the log files has changed, and these
are as they were at their beginning. -/
structure Adds (s t : Session) : Prop where
  logs : Logs s t
  grows : Store.Grows s.files t.files

theorem remark_adds (s : Session) (r : Log.Remark) : Adds s (s.remark r) :=
  ⟨remark_logs s r, remark_grows s r⟩

/-- The file at a path begins with a text, and there is more in it only if it is a log file. -/
def BeginsWith (s : Session) (path text : List Char) : Prop :=
  ∃ more, s.files.Holds path (encode text ++ more)
    ∧ ((Path.ofText path).resolve s.files.cwd ∉ s.journal.places → more = [])

theorem BeginsWith.adds {path text : List Char} (h : s.BeginsWith path text) (hst : Adds s t)
    (hready : LogsReady s) : t.BeginsWith path text := by
  obtain ⟨more, hholds, hmore⟩ := h
  have hcwd := hst.logs.files.cwd
  obtain ⟨added, hadded⟩ := hst.grows _ _ hholds.get?
  have hholds' := hholds.kept hcwd (hst.logs.keepsDirectories hready) hadded
  refine ⟨more ++ added, by rwa [← List.append_assoc], fun hplace => ?_⟩
  rw [hst.logs.journal, hcwd] at hplace
  have hsame := hst.logs.get?_eq hplace
  rw [hadded, hholds.get?] at hsame
  injection hsame with hsame
  injection hsame with hsame
  rw [hmore hplace, List.nil_append]
  exact List.append_right_eq_self.mp hsame

theorem BeginsWith.holds {path text : List Char} (h : s.BeginsWith path text)
    (hplace : (Path.ofText path).resolve s.files.cwd ∉ s.journal.places) :
    s.files.Holds path (encode text) := by
  obtain ⟨more, hholds, hmore⟩ := h
  rwa [hmore hplace, List.append_nil] at hholds

/-- Saving a text leaves it at its path, and keeps the directories. -/
theorem saved_beginsWith {path text : List Char} {files : Store}
    (h : Store.save path text s.files = .ok () files) :
    BeginsWith { s with files } path text ∧ Store.KeepsDirectories s.files files := by
  obtain ⟨hholds, hkeeps⟩ := Store.save_ok h
  exact ⟨⟨[], by rwa [List.append_nil], fun _ => rfl⟩, hkeeps⟩

/-- Nothing is lost from a file while a text is saved somewhere else. -/
theorem BeginsWith.beside {path text path' text' : List Char} {files : Store}
    (h : s.BeginsWith path text) (hsave : Store.save path' text' s.files = .ok () files)
    (hother : (Path.ofText path).resolve s.files.cwd ≠ (Path.ofText path').resolve s.files.cwd) :
    BeginsWith { s with files } path text := by
  obtain ⟨more, hholds, hmore⟩ := h
  have hchanges := Store.save_changes s.files path' text'
  rw [hsave] at hchanges
  have hfile := hchanges.file_kept hother hholds.get?
  refine ⟨more, hholds.kept hchanges.cwd (Store.save_ok hsave).2 hfile, fun hplace => hmore ?_⟩
  rwa [← hchanges.cwd]

/-! ## Actions -/

theorem settle_bind {ε α β γ : Type} (x : Except ε α) (f : α → Except ε β)
    (g : β → Action ε γ) : settle (x >>= f) >>= g = settle x >>= fun a => settle (f a) >>= g := by
  cases x <;> rfl

theorem settle_eq_ok {ε α : Type} {x : Except ε α} {a : α} :
    settle x s = .ok a t ↔ x = .ok a ∧ t = s := by
  cases x with
  | error e =>
    constructor
    · intro h
      cases h
    · rintro ⟨h, -⟩
      cases h
  | ok b =>
    constructor
    · intro h
      cases h
      exact ⟨rfl, rfl⟩
    · rintro ⟨h, rfl⟩
      cases h
      rfl

theorem settle_eq_error {ε α : Type} {x : Except ε α} {e : ε} :
    (settle x s : EStateM.Result ε Session α) = .error e t ↔ x = .error e ∧ t = s := by
  cases x with
  | ok a =>
    constructor
    · intro h
      cases h
    · rintro ⟨h, -⟩
      cases h
  | error e' =>
    constructor
    · intro h
      cases h
      exact ⟨rfl, rfl⟩
    · rintro ⟨h, rfl⟩
      cases h
      rfl

/-- A settled outcome fails as it was settled to. -/
theorem settle_failing {ε α : Type} {x : Except ε α} {P : α → Prop} {Q : ε → Prop}
    (h : Ends x P Q) : Failing (settle x : Action ε α) Q := by
  intro s e t hrun
  exact h.failure (settle_eq_error.mp hrun).1

theorem change_failing {ε α : Type} {wrap : FileError → ε} {c : Store.Change α} {Q : ε → Prop}
    (h : Failing c fun e => Q (wrap e)) : Failing (change wrap c) Q := by
  intro s e t hrun
  unfold change at hrun
  split at hrun
  · cases hrun
  · rename_i hfails
    cases hrun
    exact h _ _ _ hfails

theorem change_eq_ok {ε α : Type} {wrap : FileError → ε} {c : Store.Change α} {a : α} :
    change wrap c s = .ok a t ↔ ∃ files, c s.files = .ok a files ∧ t = { s with files } := by
  unfold change
  cases c s.files with
  | error e files => simp
  | ok b files =>
    constructor
    · intro h
      cases h
      exact ⟨files, rfl, rfl⟩
    · rintro ⟨files', h, rfl⟩
      cases h
      rfl

/-- What follows a settled outcome begins in the same state. -/
theorem settle_bind_congr {ε α β : Type} {x : Except ε α} {f g : α → Action ε β}
    (h : ∀ a, x = .ok a → f a s = g a s) : (settle x >>= f) s = (settle x >>= g) s := by
  refine run_bind_congr fun a t hx => ?_
  obtain ⟨ha, rfl⟩ := settle_eq_ok.mp hx
  exact h a ha

theorem after_settle {ε α : Type} (x : Except ε α) (s : Session) : after (settle x s) = s := by
  cases x <;> rfl

theorem after_change {ε α : Type} (wrap : FileError → ε) (c : Store.Change α) (s : Session) :
    after (change wrap c s) = { s with files := after (c s.files) } := by
  unfold change
  cases c s.files <;> rfl

end Session

end Interop
