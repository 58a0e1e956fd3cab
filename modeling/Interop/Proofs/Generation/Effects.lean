import Interop.Proofs.Generation.Run

/-!
# The effects of a run

A run leaves its model alone, whatever it comes to (`run_keeps_model`).  One that responds has
written its files and nothing else, and would respond the same again (`run_effects`).  The log
files of the session are not looked at: they are written to by whoever set up the journal.
-/

set_option autoImplicit false

namespace Interop.Generation

open Session

variable {r : Request} {config : Value} {s t : Session}

/-! ## Names -/

/-- A name that counts as something is taken as it is. -/
theorem nameOr_of_isTruthy {given : Value} (h : given.isTruthy = true) (config : Value)
    (key : String) : nameOr given config key = .ok given := by
  unfold nameOr
  rw [if_pos h]

theorem orElse_of_isTruthy {v : Value} (h : v.isTruthy = true) (alternative : Value) :
    Source.orElse v alternative = v := by
  unfold Source.orElse
  rw [if_pos h]

theorem orElse_isTruthy {alternative : Value} (h : alternative.isTruthy = true) (v : Value) :
    (Source.orElse v alternative).isTruthy = true := by
  unfold Source.orElse
  split
  · assumption
  · exact h

theorem Profile.make_eq_ok {libraryName className namespaceName usings : Value}
    {elements : Binding.ElementTable} {p : Source.Profile}
    (h : Source.Profile.make libraryName className namespaceName usings elements = .ok p) :
    libraryName.isTruthy = true ∧ p.libraryName = libraryName
      ∧ p.className = Source.orElse className libraryName := by
  unfold Source.Profile.make at h
  cases hname : libraryName.isTruthy with
  | false =>
    rw [hname] at h
    cases h
  | true =>
    rw [hname] at h
    obtain ⟨items, -, hp⟩ := bind_eq_ok.mp h
    cases hp
    exact ⟨rfl, rfl, rfl⟩

/-- The class of a run that has a library has a name. -/
theorem className_isTruthy {bindgen : Value} {names : Names}
    (h : settledNames r bindgen = .ok names) (hlibrary : names.libraryName.isTruthy = true) :
    names.className.isTruthy = true := by
  unfold settledNames at h
  obtain ⟨library, -, h⟩ := bind_eq_ok.mp h
  obtain ⟨className, -, h⟩ := bind_eq_ok.mp h
  cases h
  exact orElse_isTruthy hlibrary className

/-- The source of a run uses the names that the run has settled. -/
theorem Made.names {x : Prepared} {names : Names} {lowered : Binding.Lowered}
    {emitted : Source.Emitted} (h : Made r config x names lowered emitted) :
    ∃ p : Source.Profile, Source.emit p lowered.bindings = .ok emitted
      ∧ p.libraryName = names.libraryName ∧ p.className = names.className := by
  obtain ⟨bindgen, options, p, hgenerates⟩ := generate_eq_ok.mp h.generated
  have hprofile := hgenerates.profile_eq
  unfold profile at hprofile
  obtain ⟨className, hclass, hprofile⟩ := bind_eq_ok.mp hprofile
  obtain ⟨namespaceName, -, hprofile⟩ := bind_eq_ok.mp hprofile
  obtain ⟨usings, -, hprofile⟩ := bind_eq_ok.mp hprofile
  obtain ⟨hlibrary, hp, hp'⟩ := Profile.make_eq_ok hprofile
  refine ⟨p, hgenerates.emitted_eq, hp, ?_⟩
  -- The class is looked up twice, and the second time it already has a name.
  have htruthy := className_isTruthy h.settled hlibrary
  rw [nameOr_of_isTruthy htruthy] at hclass
  cases hclass
  rw [hp', orElse_of_isTruthy htruthy]

/-! ## The model -/

/-- The place of the model: the one that is compared with the other places, and any that the path
of the model is followed to. -/
def Request.Reads (r : Request) (files : Store) (place : Place) : Prop :=
  place = (Path.ofText r.input).resolve files.cwd
    ∨ ∃ entry, files.locate r.inputText = .ok (.found place entry)

theorem Request.Reads.eq {files : Store} {place : Place} (h : r.Reads files place) :
    place = (Path.ofText r.input).resolve files.cwd := by
  rcases h with h | ⟨entry, hlocate⟩
  · exact h
  · rw [Store.locate_at hlocate (.found place entry)]
    exact Path.resolve_toText files.cwd r.input

theorem Prepared.Sound.holds {x : Prepared} (h : x.Sound r config s.files) :
    ∃ bytes, s.files.Holds r.inputText bytes
      ∧ s.files.get? ((Path.ofText r.input).resolve s.files.cwd) = some (.file bytes) := by
  obtain ⟨bytes, hholds⟩ := holds_of_load h.header
  refine ⟨bytes, hholds, ?_⟩
  rw [← Path.resolve_toText]
  exact hholds.get?

/-- No file that a run writes is its model. -/
theorem Apart.not_writes {manifest : Option (List Char)} {cwd : Place}
    (h : Apart r manifest cwd) : ¬ r.Writes manifest cwd ((Path.ofText r.input).resolve cwd) := by
  rintro (houtput | ⟨path, hpath, hplace⟩)
  · exact h.output houtput.symm
  · exact (h.manifest path hpath).1 hplace.symm

/-- No file that a request reads or writes is a log file. -/
def Request.Unlogged (r : Request) (config : Value) (s : Session) : Prop :=
  ∀ manifest, r.manifestPath config = .ok manifest → Generation.Unlogged r manifest s

theorem run_keeps_model (hfree : r.Unlogged config s) {place : Place}
    (hplace : r.Reads s.files place) :
    (after (run r config s)).files.get? place = s.files.get? place := by
  cases hx : prepare r config s.files with
  | error e =>
    rw [run_eq, hx]
    rfl
  | ok x =>
    have hsound := prepare_eq_ok.mp hx
    obtain ⟨bytes, -, hfile⟩ := hsound.holds
    rw [run_of_prepare hx, hplace.eq, hfile]
    refine (carryOut_changes r config x s).files.file_kept ?_ hfile
    rintro (hwrites | hlog)
    · exact (apart_of_checkPaths hsound.paths).not_writes hwrites
    · exact (hfree _ hsound.manifest).input hlog

/-! ## The files -/

/-- What a run that responded has done, from the settled names to the files. -/
structure Done (r : Request) (config : Value) (s : Session) (x : Prepared) (names : Names)
    (lowered : Binding.Lowered) (emitted : Source.Emitted) (response : Response) (t : Session) :
    Prop where
  prepared : x.Sound r config s.files
  made : Made r config x names lowered emitted
  named : ∃ p : Source.Profile, Source.emit p lowered.bindings = .ok emitted
    ∧ p.libraryName = names.libraryName ∧ p.className = names.className
  response : response = ⟨r.output, x.manifest, emitted.declaredNames, lowered.failures⟩
  present : Present r.output x.manifest names emitted t
  changes : Changes (r.Writes x.manifest s.files.cwd) (r.Passes x.manifest s.files.cwd) s t

variable {response : Response}

/-- A run that responded has written what it made, even over a log file. -/
theorem run_wrote (hready : LogsReady s) (h : run r config s = .ok response t) :
    ∃ x names lowered emitted, x.Sound r config s.files ∧ Made r config x names lowered emitted
      ∧ response = ⟨r.output, x.manifest, emitted.declaredNames, lowered.failures⟩
      ∧ Wrote r.output x.manifest names emitted t ∧ Store.KeepsDirectories s.files t.files := by
  rw [run_eq] at h
  obtain ⟨x, s', hx, hcarry⟩ := run_bind_eq_ok.mp h
  obtain ⟨hprepare, rfl⟩ := settle_eq_ok.mp hx
  have hsound := prepare_eq_ok.mp hprepare
  obtain ⟨names, lowered, emitted, hmade⟩ := made_of_carryOut hcarry
  obtain ⟨u, hlogs, hwrites⟩ := hmade.carryOut s'
  rw [hcarry] at hwrites
  obtain ⟨_, v, hfiles, hresponse⟩ := run_bind_eq_ok.mp hwrites.symm
  cases hresponse
  have hcwd : u.files.cwd = s'.files.cwd := hlogs.files.cwd
  have hapart : Apart r x.manifest u.files.cwd := by
    rw [hcwd]
    exact apart_of_checkPaths hsound.paths
  obtain ⟨hwrote, hkeeps⟩ := writeFiles_wrote hapart (hready.changes hlogs) hfiles
  refine ⟨x, names, lowered, emitted, hsound, hmade, rfl, hwrote, fun place hplace => ?_⟩
  exact hkeeps place (hlogs.keepsDirectories hready place hplace)

theorem run_done (hready : LogsReady s) (hfree : r.Unlogged config s)
    (h : run r config s = .ok response t) :
    ∃ x names lowered emitted, Done r config s x names lowered emitted response t
      ∧ Store.KeepsDirectories s.files t.files := by
  obtain ⟨x, names, lowered, emitted, hsound, hmade, hresponse, hwrote, hkeeps⟩ :=
    run_wrote hready h
  have hchanges := carryOut_changes r config x s
  rw [← run_of_prepare (prepare_eq_ok.mpr hsound), h] at hchanges
  have hpresent := hwrote.present ((hfree _ hsound.manifest).changes hchanges)
  exact ⟨x, names, lowered, emitted,
    ⟨hsound, hmade, hmade.names, hresponse, hpresent, hchanges⟩, hkeeps⟩

/-- What was prepared for a run is prepared again after it. -/
theorem Prepared.Sound.again {x : Prepared} (h : x.Sound r config s.files)
    (hcwd : t.files.cwd = s.files.cwd) (hkeeps : Store.KeepsDirectories s.files t.files)
    (hmodel : t.files.get? ((Path.ofText r.input).resolve s.files.cwd)
      = s.files.get? ((Path.ofText r.input).resolve s.files.cwd)) :
    x.Sound r config t.files := by
  obtain ⟨bytes, hholds, hfile⟩ := h.holds
  have hplace : t.files.get? ((Path.ofText r.inputText).resolve s.files.cwd)
      = some (.file bytes) := by
    rw [Path.resolve_toText, hmodel, hfile]
  refine ⟨h.bindgen, h.policy, h.manifest, ?_, ?_⟩
  · rw [hcwd]
    exact h.paths
  · rw [load_of_holds (hholds.kept hcwd hkeeps hplace), ← load_of_holds hholds]
    exact h.header

theorem run_again {x : Prepared} {names : Names} {lowered : Binding.Lowered}
    {emitted : Source.Emitted} (hx : x.Sound r config t.files)
    (hmade : Made r config x names lowered emitted)
    (hpresent : Present r.output x.manifest names emitted t) (hready : LogsReady t)
    (hfree : Generation.Unlogged r x.manifest t) :
    ∃ u, run r config t = .ok ⟨r.output, x.manifest, emitted.declaredNames, lowered.failures⟩ u
      ∧ Logs t u := by
  obtain ⟨v, hlogs, hcarry⟩ := hmade.carryOut t
  have hpresent' := hpresent.logs hlogs hready hfree
  obtain ⟨u, hwrites, hu⟩ := writeFiles_again hpresent' (hready.changes hlogs) (hfree.changes hlogs)
  refine ⟨u, ?_, hlogs.trans hu⟩
  rw [run_of_prepare (prepare_eq_ok.mpr hx), hcarry, run_bind_ok hwrites]
  rfl

/-- A run touches only what it is asked to.  Its model stays as it is, whatever the outcome.  If
it responds, the output holds the source and the manifest says which names the source uses; apart
from these two and the log files nothing has changed, but for directories that were missing on the
way; and the same request would be responded to in the same way, with no further effect. -/
theorem run_effects (r : Request) (config : Value) (s : Session) (hready : LogsReady s)
    (hfree : r.Unlogged config s) :
    (∀ place, r.Reads s.files place →
      (after (run r config s)).files.get? place = s.files.get? place)
    ∧ ∀ response t, run r config s = .ok response t →
      (∃ x names lowered emitted, Done r config s x names lowered emitted response t)
      ∧ ∃ u, run r config t = .ok response u ∧ u.files.cwd = t.files.cwd
        ∧ ∀ place, place ∉ t.journal.places → u.files.get? place = t.files.get? place := by
  refine ⟨fun place hplace => run_keeps_model hfree hplace, fun response t hrun => ?_⟩
  obtain ⟨x, names, lowered, emitted, hdone, hkeeps⟩ := run_done hready hfree hrun
  refine ⟨⟨x, names, lowered, emitted, hdone⟩, ?_⟩
  have hmodel := run_keeps_model hfree (.inl rfl)
  rw [hrun] at hmodel
  have hx := hdone.prepared.again hdone.changes.files.cwd hkeeps hmodel
  have hready' := hready.changes hdone.changes
  have hfree' := (hfree _ hdone.prepared.manifest).changes hdone.changes
  obtain ⟨u, hagain, hlogs⟩ := run_again hx hdone.made hdone.present hready' hfree'
  refine ⟨u, ?_, hlogs.files.cwd, fun place hplace => hlogs.get?_eq hplace⟩
  rw [hdone.response]
  exact hagain

/-- A request whose output and manifest are spelled through a directory that has to be made. -/
def sampleRequest : Request :=
  ⟨"./m.json".toList, "d/../o.cs".toList, ⟨.null, .null, .null⟩, some "d//o.json".toList⟩

/-- A session without log files, and with a model of one opaque type. -/
def sampleSession : Session :=
  let model := "\x7b\"opaque_data_types\": [\x7b\"name\": \"T\", \"location\": \x7b\"kind\": \"\",
    \"file_name\": \"t.h\", \"line\": 1\x7d\x7d]\x7d"
  .start .bare ⟨[], [(["m.json".toList], .file (Text.encode model.toList))]⟩

theorem run_effects_sample :
    ∃ response t, run sampleRequest (.table []) sampleSession = .ok response t
      ∧ t.files.get? ["m.json".toList] = sampleSession.files.get? ["m.json".toList]
      ∧ (∃ x names lowered emitted, Done sampleRequest (.table []) sampleSession x names lowered
        emitted response t)
      ∧ ∃ u, run sampleRequest (.table []) t = .ok response u ∧ u.files.cwd = t.files.cwd
        ∧ ∀ place, place ∉ t.journal.places → u.files.get? place = t.files.get? place := by
  have hready : LogsReady sampleSession := fun place hplace => nomatch hplace
  have hfree : sampleRequest.Unlogged (.table []) sampleSession := fun manifest _ =>
    ⟨List.not_mem_nil, List.not_mem_nil, fun _ _ => List.not_mem_nil⟩
  have hok : (match run sampleRequest (.table []) sampleSession with
      | .ok _ _ => true
      | .error _ _ => false) = true := by decide +kernel
  have heffects := run_effects sampleRequest (.table []) sampleSession hready hfree
  cases hrun : run sampleRequest (.table []) sampleSession with
  | error e t =>
    rw [hrun] at hok
    cases hok
  | ok response t =>
    have hmodel := heffects.1 ["m.json".toList] (.inl (by decide +kernel))
    rw [hrun] at hmodel
    obtain ⟨hdone, hagain⟩ := heffects.2 response t hrun
    exact ⟨response, t, rfl, hmodel, hdone, hagain⟩

end Interop.Generation
