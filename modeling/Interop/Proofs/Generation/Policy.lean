import Interop.Proofs.Config.Options
import Interop.Proofs.Generation.Run

/-!
# The error policy

A run can be refused: its files would be in each other's way, or declarations could not be bound and
the policy is to abort.  All refusals, and all complaints about the model or the policy itself, come
before the first directory is made (`RunError.LeavesNoTrace`).  Once a run is prepared and its
source is there, the policy alone decides what becomes of it (`run_follows_policy`).
-/

set_option autoImplicit false

namespace Interop.Generation

open Session

/-- A run that is refused for the sake of its files or of its declarations. -/
inductive RunError.IsRefusal : RunError → Prop
  | outputOverInput (output : List Char) : IsRefusal (.path (.outputOverInput output))
  | manifestOverInput (manifest : List Char) : IsRefusal (.path (.manifestOverInput manifest))
  | manifestOverOutput (manifest : List Char) : IsRefusal (.path (.manifestOverOutput manifest))
  | aborted (input : List Char) (failures : List Binding.Failure) :
      IsRefusal (.aborted input failures)

/-- The errors that say that a request, its model or the policy will not do. -/
inductive RunError.LeavesNoTrace : RunError → Prop
  | refusal {e : RunError} (h : e.IsRefusal) : LeavesNoTrace e
  | notJson (path : List Char) (description : String) :
      LeavesNoTrace (.load (.notJson path description))
  | invalidModel (violation : Schema.Violation) :
      LeavesNoTrace (.load (.document (.invalid violation)))
  | invalidPolicy (policy : Value) : LeavesNoTrace (.config (.invalidPolicy policy))

variable {r : Request} {config : Value} {x : Prepared} {names : Names} {s t : Session}
  {lowered : Binding.Lowered} {emitted : Source.Emitted} {e : RunError}

/-! ## Stages -/

/-- A name can always be looked up in a table. -/
theorem exists_nameOr (given : Value) (entries : Value.Entries) (key : String) :
    ∃ v, nameOr given (.table entries) key = .ok v := by
  unfold nameOr
  split
  · exact ⟨given, rfl⟩
  · rw [Config.getOr_table]
    exact ⟨_, rfl⟩

/-- The names of a prepared run can always be settled. -/
theorem Prepared.Sound.exists_names {files : Store} (h : x.Sound r config files) :
    ∃ names, settledNames r x.bindgen = .ok names := by
  obtain ⟨entries, hentries⟩ := Config.exists_bindgen_of_policy h.policy h.bindgen
  obtain ⟨library, hlibrary⟩ := exists_nameOr r.names.libraryName entries "library_name"
  obtain ⟨className, hclass⟩ := exists_nameOr r.names.className entries "class_name"
  unfold settledNames
  rw [hentries, hlibrary, ok_bind, hclass]
  exact ⟨_, rfl⟩

/-- The policy to abort fails with the failures that there are, and nothing else does. -/
theorem applyPolicy_error {policy : Config.Policy} {input : List Char}
    {failures : List Binding.Failure} (h : applyPolicy policy input failures s = .error e t) :
    policy = .abort ∧ failures ≠ [] ∧ e = .aborted input failures := by
  unfold applyPolicy at h
  cases failures with
  | nil => cases h
  | cons failure failures =>
    cases policy with
    | abort =>
      cases h
      exact ⟨rfl, List.cons_ne_nil _ _, rfl⟩
    | skip => cases h

/-- Why the files of a run are not written: one of them cannot be saved, or the manifest cannot be
put into words. -/
inductive WritingFails (output : List Char) (manifest : Option (List Char)) (names : Names)
    (emitted : Source.Emitted) : RunError → Prop
  | saving {path text : List Char} {files files' : Store} {error : FileError}
      (file : path = output ∨ manifest = some path)
      (saving : Store.save path text files = .error error files') :
      WritingFails output manifest names emitted (.file error)
  | wording {fault : Fault}
      (wording : manifestText names.libraryName names.className emitted.declaredNames
        = .error fault) :
      WritingFails output manifest names emitted (.fault fault)

theorem writeFiles_error {output : List Char} {manifest : Option (List Char)}
    (h : writeFiles output manifest names emitted s = .error e t) :
    WritingFails output manifest names emitted e := by
  have hsave {path text : List Char} {u v : Session} (hfile : path = output ∨ manifest = some path)
      (h : change RunError.file (Store.save path text) u = .error e v) :
      WritingFails output manifest names emitted e := by
    unfold change at h
    split at h
    · cases h
    · rename_i hsaving
      cases h
      exact .saving hfile hsaving
  unfold writeFiles at h
  rcases run_bind_eq_error.mp h with h | ⟨_, u, -, h⟩
  · exact hsave (.inl rfl) h
  rcases run_bind_eq_error.mp h with h | ⟨_, v, -, h⟩
  · cases h
  cases manifest with
  | none => cases h
  | some path =>
    rcases run_bind_eq_error.mp h with h | ⟨text, w, -, h⟩
    · obtain ⟨htext, -⟩ := settle_eq_error.mp h
      obtain ⟨fault, hfault, rfl⟩ := mapError_eq_error.mp htext
      exact .wording hfault
    rcases run_bind_eq_error.mp h with h | ⟨_, _, -, h⟩
    · exact hsave (.inr rfl) h
    · cases h

theorem not_isRefusal_of_writeFiles {output : List Char} {manifest : Option (List Char)}
    (h : writeFiles output manifest names emitted s = .error e t) : ¬ e.IsRefusal := by
  cases writeFiles_error h with
  | saving hfile hsaving => rintro ⟨⟩
  | wording hwording => rintro ⟨⟩

/-- Where a run that has settled its names fails: over its source, the policy or its files. -/
inductive FailsAt (r : Request) (config : Value) (x : Prepared) (names : Names) (s : Session)
    (e : RunError) (t : Session) : Prop
  | source {error : Source.EmissionError} (generated : generate config names x.header = .error error)
      (error_eq : e = .emission error)
  | policy {lowered : Binding.Lowered} {emitted : Source.Emitted}
      (generated : generate config names x.header = .ok (lowered, emitted))
      (abort : x.policy = .abort) (failed : lowered.failures ≠ [])
      (error_eq : e = .aborted r.input lowered.failures) (logs : Logs s t)
  | files {lowered : Binding.Lowered} {emitted : Source.Emitted} {u : Session}
      (made : Made r config x names lowered emitted)
      (writing : writeFiles r.output x.manifest names emitted u = .error e t)

theorem carryOut_error (hnames : settledNames r x.bindgen = .ok names)
    (h : carryOut r config x s = .error e t) : FailsAt r config x names s e t := by
  cases hgenerated : generate config names x.header with
  | error error =>
    -- The names are settled, so nothing before the source can fail.
    unfold carryOut at h
    rcases run_bind_eq_error.mp h with h | ⟨_, t₁, -, h⟩
    · cases h
    rw [hnames] at h
    rcases run_bind_eq_error.mp h with h | ⟨_, t₂, hsettle, h⟩
    · cases h
    cases (settle_eq_ok.mp hsettle).1
    rcases run_bind_eq_error.mp h with h | ⟨_, t₃, -, h⟩
    · cases h
    rcases run_bind_eq_error.mp h with h | ⟨_, t₄, -, h⟩
    · cases h
    rw [hgenerated] at h
    rcases run_bind_eq_error.mp h with h | ⟨_, t₅, hsettle, -⟩
    · obtain ⟨herror, -⟩ := settle_eq_error.mp h
      exact .source hgenerated (Except.error.inj herror).symm
    · cases hsettle
  | ok made =>
    obtain ⟨lowered, emitted⟩ := made
    obtain ⟨u, hlogs, hcarry⟩ := carryOut_of_generated hnames hgenerated s
    rw [hcarry] at h
    have hpolicy := applyPolicy_logs x.policy r.input lowered.failures u
    rcases run_bind_eq_error.mp h with h | ⟨_, v, happly, h⟩
    · rw [h] at hpolicy
      obtain ⟨habort, hfailed, herror⟩ := applyPolicy_error h
      exact .policy hgenerated habort hfailed herror (hlogs.trans hpolicy)
    rcases run_bind_eq_error.mp h with h | ⟨_, w, -, h⟩
    · exact .files ⟨hnames, hgenerated, applyPolicy_eq_ok.mp ⟨v, happly⟩⟩ h
    · cases h

/-! ## Nothing is touched -/

/-- An error that is to leave no trace is found before anything is written. -/
theorem logs_of_leavesNoTrace (h : run r config s = .error e t) (he : e.LeavesNoTrace) :
    Logs s t := by
  rw [run_eq] at h
  rcases run_bind_eq_error.mp h with hsettle | ⟨x, u, hsettle, hcarry⟩
  · obtain ⟨-, rfl⟩ := settle_eq_error.mp hsettle
    exact .refl t
  obtain ⟨hprepare, rfl⟩ := settle_eq_ok.mp hsettle
  obtain ⟨names, hnames⟩ := (prepare_eq_ok.mp hprepare).exists_names
  cases carryOut_error hnames hcarry with
  | source generated error_eq =>
    subst error_eq
    obtain ⟨⟨⟩⟩ := he
  | policy generated abort failed error_eq logs => exact logs
  | files made writing =>
    cases writeFiles_error writing with
    | saving file saving => obtain ⟨⟨⟩⟩ := he
    | wording wording => obtain ⟨⟨⟩⟩ := he

/-! ## The policy decides -/

/-- A run whose source is there is refused only by its policy, and then for all failures. -/
theorem refusal_of_generated (hx : x.Sound r config s.files)
    (hnames : settledNames r x.bindgen = .ok names)
    (hgenerated : generate config names x.header = .ok (lowered, emitted)) {e : RunError}
    (h : run r config s = .error e t) (he : e.IsRefusal) :
    x.policy = .abort ∧ lowered.failures ≠ [] ∧ e = .aborted r.input lowered.failures := by
  rw [run_of_prepare (prepare_eq_ok.mpr hx)] at h
  cases carryOut_error hnames h with
  | source generated error_eq =>
    rw [hgenerated] at generated
    cases generated
  | policy generated abort failed error_eq logs =>
    rw [hgenerated] at generated
    cases generated
    exact ⟨abort, failed, error_eq⟩
  | files made writing => exact absurd he (not_isRefusal_of_writeFiles writing)

/-- What becomes of a prepared run whose source is there. -/
structure FollowsPolicy (r : Request) (config : Value) (s : Session) (x : Prepared) (names : Names)
    (lowered : Binding.Lowered) (emitted : Source.Emitted) : Prop where
  /-- The failures are those of lowering. -/
  lowering : ∃ options, Config.loweringOptions config = .ok options
    ∧ Binding.lower options x.header = .ok lowered
  abort : x.policy = .abort →
    ((∃ e t, run r config s = .error e t ∧ e.IsRefusal) ↔ lowered.failures ≠ [])
  aborted : ∀ e t, run r config s = .error e t → e.IsRefusal →
    e = .aborted r.input lowered.failures
  skip : x.policy = .skip → ∀ e t, run r config s = .error e t → ¬ e.IsRefusal
  /-- The files are written in a session in which nothing but logging has happened, and all then
  depends on writing them. -/
  responds : x.policy = .skip → ∃ u, Logs s u ∧ ∀ v,
    writeFiles r.output x.manifest names emitted u = .ok () v →
      run r config s
        = .ok ⟨r.output, x.manifest, emitted.declaredNames, lowered.failures⟩ v

theorem followsPolicy (hx : x.Sound r config s.files) (hnames : settledNames r x.bindgen = .ok names)
    (hgenerated : generate config names x.header = .ok (lowered, emitted)) :
    FollowsPolicy r config s x names lowered emitted := by
  have hrun : run r config s = carryOut r config x s := run_of_prepare (prepare_eq_ok.mpr hx)
  obtain ⟨u, hlogs, hcarry⟩ := carryOut_of_generated hnames hgenerated s
  obtain ⟨bindgen, options, p, hgenerates⟩ := generate_eq_ok.mp hgenerated
  refine ⟨⟨options, hgenerates.options_eq, hgenerates.lowered_eq⟩, ?_, ?_, ?_, ?_⟩
  · intro habort
    constructor
    · rintro ⟨e, t, h, he⟩
      exact (refusal_of_generated hx hnames hgenerated h he).2.1
    · intro hfailed
      have hstops : ∃ t, applyPolicy x.policy r.input lowered.failures u
          = .error (.aborted r.input lowered.failures) t := by
        rw [habort]
        unfold applyPolicy
        rw [List.isEmpty_eq_false_iff.mpr hfailed]
        exact ⟨_, rfl⟩
      obtain ⟨t, hstops⟩ := hstops
      refine ⟨_, t, ?_, .aborted r.input lowered.failures⟩
      rw [hrun, hcarry]
      exact run_bind_error hstops
  · intro e t h he
    exact (refusal_of_generated hx hnames hgenerated h he).2.2
  · intro hskip e t h he
    have habort := (refusal_of_generated hx hnames hgenerated h he).1
    rw [hskip] at habort
    cases habort
  · intro hskip
    have hmade : Made r config x names lowered emitted := ⟨hnames, hgenerated, .inr hskip⟩
    obtain ⟨v, hlogs, hcarry⟩ := hmade.carryOut s
    refine ⟨v, hlogs, fun w hwrites => ?_⟩
    rw [hrun, hcarry, run_bind_ok hwrites]
    rfl

/-- The errors of a run.  A refusal, a model that is invalid and a policy that is none leave all
files and directories as they were, the log files apart.  A prepared run that has made its source
is aborted for all failures of lowering, or for none if there are none; and if it skips them it is
never refused, and responds with all of them once its files are written. -/
theorem run_follows_policy (r : Request) (config : Value) (s : Session) :
    (∀ e t, run r config s = .error e t → e.LeavesNoTrace → Logs s t)
    ∧ ∀ x : Prepared, x.Sound r config s.files →
      ∃ names, settledNames r x.bindgen = .ok names
        ∧ ∀ lowered emitted, generate config names x.header = .ok (lowered, emitted) →
          FollowsPolicy r config s x names lowered emitted := by
  refine ⟨fun e t h he => logs_of_leavesNoTrace h he, fun x hx => ?_⟩
  obtain ⟨names, hnames⟩ := hx.exists_names
  exact ⟨names, hnames, fun lowered emitted h => followsPolicy hx hnames h⟩

/-- The lines of a record of eight bytes with a field of four. -/
def gapRecord : List String :=
  ["\x7b\"name\":\"P\",", "\"location\":\x7b\"kind\":\"\",", "\"file_name\":\"p.h\",\"line\":3\x7d,",
   "\"type\":\x7b\"name\":\"P\",", "\"size_of\":8,\"align_of\":4\x7d,",
   "\"fields\":[\x7b\"name\":\"x\",", "\"location\":\x7b\"kind\":\"\",",
   "\"file_name\":\"p.h\",\"line\":4\x7d,", "\"type\":\x7b\"name\":\"int\",",
   "\"size_of\":4,\"align_of\":4\x7d,", "\"offset\":0,\"padding\":0\x7d]\x7d"]

/-- The lines of a model with these records and an opaque type. -/
def modelLines (records : List String) : List String :=
  ["\x7b\"records\":["] ++ records ++ ["],", "\"opaque_data_types\":[", "\x7b\"name\":\"T\",",
   "\"location\":\x7b\"kind\":\"\",", "\"file_name\":\"p.h\",\"line\":9\x7d\x7d]\x7d"]

def linesBytes (lines : List String) : Text.Bytes :=
  lines.flatMap fun line => line.toUTF8.data.toList

/-- A session without log files whose model is in `p.json`. -/
def modelSession (model : Text.Bytes) : Session :=
  .start .bare ⟨[], [(["p.json".toList], .file model)]⟩

/-- A session with a record that cannot be bound once layouts are checked. -/
def gapSession : Session := modelSession (linesBytes (modelLines gapRecord))

def gapRequest : Request := ⟨"p.json".toList, "out/p.cs".toList, ⟨.null, .null, .null⟩, none⟩

/-- Layouts are checked, and the manifest is written. -/
def checkedConfig (onError : String) : Value :=
  .table [("bindgen", .table [("on_error", .text onError), ("manifest", .bool true)]),
    ("mapping", .table [("validate_layout", .bool true)])]

theorem run_follows_policy_gap :
    ∃ x names lowered emitted e t, x.Sound gapRequest (checkedConfig "abort") gapSession.files
      ∧ FollowsPolicy gapRequest (checkedConfig "abort") gapSession x names lowered emitted
      ∧ lowered.failures.map (·.name) = ["P"]
      ∧ run gapRequest (checkedConfig "abort") gapSession = .error e t
      ∧ e.IsRefusal ∧ e.LeavesNoTrace ∧ Logs gapSession t := by
  have hstages : (do
      let x ← (prepare gapRequest (checkedConfig "abort") gapSession.files).toOption
      let names ← (settledNames gapRequest x.bindgen).toOption
      let made ← (generate (checkedConfig "abort") names x.header).toOption
      return (x.policy, made.1.failures.map (·.name))) = some (.abort, ["P"]) := by
    decide +kernel
  obtain ⟨x, hx, hstages⟩ := Option.bind_eq_some_iff.mp hstages
  obtain ⟨names, hnames, hstages⟩ := Option.bind_eq_some_iff.mp hstages
  obtain ⟨⟨lowered, emitted⟩, hgenerated, hstages⟩ := Option.bind_eq_some_iff.mp hstages
  obtain ⟨habort, hfailures⟩ := Prod.mk.inj (Option.some.inj hstages)
  have hsound := prepare_eq_ok.mp (toOption_eq_some.mp hx)
  obtain ⟨htrace, hpolicy⟩ := run_follows_policy gapRequest (checkedConfig "abort") gapSession
  obtain ⟨names', hnames', hfollows⟩ := hpolicy x hsound
  obtain rfl : names' = names :=
    Except.ok.inj (hnames'.symm.trans (toOption_eq_some.mp hnames))
  have hfollows := hfollows lowered emitted (toOption_eq_some.mp hgenerated)
  have hfailed : lowered.failures ≠ [] := by
    intro hnone
    rw [hnone] at hfailures
    cases hfailures
  obtain ⟨e, t, hrun, he⟩ := (hfollows.abort habort).mpr hfailed
  exact ⟨x, names', lowered, emitted, e, t, hsound, hfollows, hfailures, hrun, he, .refusal he,
    htrace e t hrun (.refusal he)⟩

end Interop.Generation
