import Interop.Log.Setup
import Interop.Proofs.Session

/-!
# Log files are there

A session begins without log files, and the setup of the journal opens each file before it adds the
handler for it (`setup_logsReady`).  Nothing takes files away, so every log file of a session is
there at any time.
-/

set_option autoImplicit false

namespace Interop

open Session

variable {s : Session}

theorem Session.start_logsReady (surroundings : Surroundings) (files : Store) :
    LogsReady (start surroundings files) := by
  intro place hplace
  cases hplace

/-- Log files stay when all files do. -/
theorem Session.LogsReady.files {written way : Place → Prop} (h : LogsReady s) {files : Store}
    (hfiles : Store.Changes written way s.files files) : LogsReady { s with files } := by
  intro place hplace
  obtain ⟨bytes, hbytes⟩ := h place hplace
  exact hfiles.files place bytes hbytes

/-- What is opened to be written at its end is a file from then on. -/
theorem Store.openToAppend_run (s : Store) (path : List Char) :
    (∃ place t, openToAppend path s = .ok place t ∧ Changes (· = place) (fun _ => False) s t
      ∧ ∃ bytes, t.get? place = some (.file bytes))
    ∨ ∃ e, openToAppend path s = .error e s := by
  unfold openToAppend
  rcases openFile_run s path with ⟨place, old, hopen, hwritable⟩ | ⟨e, hopen⟩
  · obtain ⟨-, hne⟩ := hwritable.get?
    refine .inl ⟨place, s.set place (.file (old.getD [])), ?_, changes_set_file hne, ?_⟩
    · rw [run_bind_ok hopen]
      rfl
    · refine ⟨old.getD [], ?_⟩
      rw [get?_set s hne, if_pos rfl]
  · refine .inr ⟨e, ?_⟩
    rw [run_bind_error hopen]

namespace Log

/-- Log files stay there. -/
def KeepsReady (s t : Session) : Prop := LogsReady s → LogsReady t

theorem KeepsReady.trans (s t u : Session) (h : KeepsReady s t) (h' : KeepsReady t u) :
    KeepsReady s u := by
  intro hs
  exact h' (h hs)

theorem get_keepsReady {ε : Type} (s : Session) :
    KeepsReady s (after ((get : Action ε Session) s)) := by
  intro h
  exact h

theorem settle_keepsReady {ε α : Type} (x : Except ε α) (s : Session) :
    KeepsReady s (after (settle x s)) := by
  rw [after_settle]
  exact id

theorem places_append (handlers : List Handler) (handler : Handler) (level : Level) :
    Journal.places ⟨level, handlers ++ [handler]⟩
      = Journal.places ⟨level, handlers⟩ ++ handler.sink.place?.toList := by
  unfold Journal.places
  cases hplace : handler.sink.place? with
  | none => simp [List.filterMap_append, hplace]
  | some place => simp [List.filterMap_append, hplace]

theorem ensureDirectories_keepsReady (steps : Nat) (path : List Char) (s : Session) :
    KeepsReady s (after (change SetupError.file (Store.ensureDirectories steps path) s)) := by
  intro hready
  rw [after_change]
  exact hready.files (Store.ensureDirectories_makes steps s.files path)

/-- The console has no log files. -/
theorem setHandlers_keepsReady (level : Level) (colour : Bool) (surroundings : Surroundings)
    (s : Session) :
    KeepsReady s (after (setHandlers (consoleHandlers level colour surroundings) s)) := by
  intro _ place hplace
  cases hplace

theorem setLevel_keepsReady (level : Level) (s : Session) :
    KeepsReady s (after (setLevel level s)) := by
  intro h
  exact h

theorem addHandler_logsReady {handler : Handler} (h : LogsReady s)
    (hplace : ∀ place, handler.sink.place? = some place →
      ∃ bytes, s.files.get? place = some (.file bytes)) :
    LogsReady (after (addHandler handler s)) := by
  intro place hmem
  have hmem' : place ∈ s.journal.places ++ handler.sink.place?.toList := by
    rw [← places_append s.journal.handlers handler s.journal.level]
    exact hmem
  rcases List.mem_append.mp hmem' with hold | hnew
  · exact h place hold
  · exact hplace place (Option.mem_toList.mp hnew)

theorem openLog_keepsReady (w : Wishes) (directory suffix : List Char) {sink : Place → Sink}
    (hsink : ∀ place, (sink place).place? = some place) (s : Session) :
    KeepsReady s (after (openLog w directory suffix sink s)) := by
  unfold openLog
  refine after_bind KeepsReady.trans (get_keepsReady s) fun found t hfound _ => ?_
  cases hfound
  refine after_bind KeepsReady.trans (settle_keepsReady _ s) fun name t ht _ => ?_
  obtain ⟨-, rfl⟩ := settle_eq_ok.mp ht
  intro hready
  rcases Store.openToAppend_run t.files
    (Path.absoluteText t.files.cwd (Path.join directory name)) with
    ⟨place, files, hopen, hchanges, hfile⟩ | ⟨e, hopen⟩
  · have hrun : change SetupError.file (Store.openToAppend
        (Path.absoluteText t.files.cwd (Path.join directory name))) t
        = .ok place { t with files } := change_eq_ok.mpr ⟨files, hopen, rfl⟩
    rw [run_bind_ok hrun]
    refine addHandler_logsReady (hready.files hchanges) fun place' hplace' => ?_
    rw [hsink place] at hplace'
    cases hplace'
    exact hfile
  · have hrun : change SetupError.file (Store.openToAppend
        (Path.absoluteText t.files.cwd (Path.join directory name))) t
        = .error (.file e) t := by
      unfold change
      rw [hopen]
    rw [run_bind_error hrun]
    exact hready

/-- Setting up the journal leaves every log file there, also where it fails. -/
theorem setup_logsReady (config level directory : Value) (h : LogsReady s) :
    LogsReady (after (setup config level directory s)) := by
  suffices hkeeps : KeepsReady s (after (setup config level directory s)) from hkeeps h
  unfold setup
  refine after_bind KeepsReady.trans (settle_keepsReady _ s) fun w t _ _ => ?_
  refine after_bind KeepsReady.trans (get_keepsReady t) fun _ u _ _ => ?_
  refine after_bind KeepsReady.trans (setHandlers_keepsReady _ _ _ u) fun _ v _ _ => ?_
  by_cases hdirectory : (!w.directory.isTruthy) = true
  · rw [if_pos hdirectory]
    exact after_bind KeepsReady.trans (setLevel_keepsReady _ v) fun _ _ _ _ => id
  rw [if_neg hdirectory]
  cases w.directory with
  | text d =>
    refine after_bind KeepsReady.trans (get_keepsReady v) fun found v' _ _ => ?_
    refine after_bind KeepsReady.trans (ensureDirectories_keepsReady _ _ v') fun _ x _ _ => ?_
    refine after_bind KeepsReady.trans (setLevel_keepsReady _ x) fun _ y _ _ => ?_
    refine after_bind KeepsReady.trans (openLog_keepsReady w _ _ (fun _ => rfl) y)
      fun _ z _ _ => ?_
    by_cases hjson : w.json = true
    · rw [if_pos hjson]
      refine after_bind KeepsReady.trans ?_ fun _ _ _ _ => id
      rw [map_eq_pure_bind]
      exact after_bind KeepsReady.trans (openLog_keepsReady w _ _ (fun _ => rfl) z)
        fun _ _ _ _ => id
    · rw [if_neg hjson]
      exact id
  | _ => exact id

end Log

end Interop
