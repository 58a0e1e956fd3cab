import Interop.Generation.Run
import Interop.Proofs.Failing
import Interop.Proofs.Session

/-!
# What a run touches

A run is prepared without touching anything (`prepare`): the policy, the paths and the model are
checked first.  What is left (`carryOut`) logs, makes directories, and writes the output and the
manifest.  The checks of the paths compare places, and following a path ends at the place that was
compared; so a run never writes over its model, and a run that returned can be repeated.
-/

set_option autoImplicit false

namespace Interop.Generation

open Session

/-! ## Two stages -/

/-- What is known before anything is done. -/
structure Prepared where
  bindgen : Value
  policy : Config.Policy
  manifest : Option (List Char)
  header : Decl.Header

/-- Checks a request against a configuration and the files there are. -/
def prepare (r : Request) (config : Value) (files : Store) : Except RunError Prepared := do
  let bindgen ← (Config.sectionOrEmpty config "bindgen").mapError .fault
  let policy ← (Config.policy config).mapError .config
  let manifest ← (r.manifestPath config).mapError .path
  (r.checkPaths files.cwd manifest).mapError .path
  let header ← (Decl.Header.load files r.input).mapError .load
  return ⟨bindgen, policy, manifest, header⟩

/-- Carries out a request that was checked. -/
def carryOut (r : Request) (config : Value) (x : Prepared) : Action RunError Response := do
  sayAll [loaded x.header r.input]
  let names ← settle ((settledNames r x.bindgen).mapError .fault)
  say Log.Level.info "Generating C# bindings for %s (%d declarations)"
    [names.libraryName, .int x.header.size]
  sayAll (remarks config names x.header)
  let (lowered, emitted) ← settle ((generate config names x.header).mapError .emission)
  applyPolicy x.policy r.input lowered.failures
  writeFiles r.output x.manifest names emitted
  return ⟨r.output, x.manifest, emitted.declaredNames, lowered.failures⟩

variable {r : Request} {config : Value} {s t : Session}

/-- A run that cannot be prepared does nothing. -/
theorem run_eq (r : Request) (config : Value) (s : Session) :
    run r config s = (settle (prepare r config s.files) >>= carryOut r config) s := by
  unfold run prepare
  simp only [settle_bind]
  refine settle_bind_congr fun bindgen _ => ?_
  refine settle_bind_congr fun policy _ => ?_
  refine settle_bind_congr fun manifest _ => ?_
  show (settle ((r.checkPaths s.files.cwd manifest).mapError RunError.path) >>= _) s = _
  refine settle_bind_congr fun _ _ => ?_
  show (settle ((Decl.Header.load s.files r.input).mapError RunError.load) >>= _) s = _
  exact settle_bind_congr fun header _ => rfl

theorem run_of_prepare {x : Prepared} (h : prepare r config s.files = .ok x) :
    run r config s = carryOut r config x s := by
  rw [run_eq, h]
  rfl

/-! ## What is checked -/

structure Prepared.Sound (r : Request) (config : Value) (files : Store) (x : Prepared) : Prop where
  bindgen : Config.sectionOrEmpty config "bindgen" = .ok x.bindgen
  policy : Config.policy config = .ok x.policy
  manifest : r.manifestPath config = .ok x.manifest
  paths : r.checkPaths files.cwd x.manifest = .ok ()
  header : Decl.Header.load files r.input = .ok x.header

theorem prepare_eq_ok {files : Store} {x : Prepared} :
    prepare r config files = .ok x ↔ x.Sound r config files := by
  unfold prepare
  simp only [bind_eq_ok, mapError_eq_ok]
  constructor
  · rintro ⟨bindgen, hbindgen, policy, hpolicy, manifest, hmanifest, _, hpaths, header, hheader, hx⟩
    cases hx
    exact ⟨hbindgen, hpolicy, hmanifest, hpaths, hheader⟩
  · intro h
    exact ⟨_, h.bindgen, _, h.policy, _, h.manifest, _, h.paths, _, h.header, rfl⟩

theorem placeOf_eq_ok {cwd place : Place} {path : List Char} (h : placeOf cwd path = .ok place) :
    place = (Path.ofText path).resolve cwd := by
  unfold placeOf at h
  split at h
  · cases h
  · exact (Except.ok.inj h).symm

/-- Paths that pass the check lead to different places. -/
structure Apart (r : Request) (manifest : Option (List Char)) (cwd : Place) : Prop where
  output : (Path.ofText r.output).resolve cwd ≠ (Path.ofText r.input).resolve cwd
  manifest : ∀ path, manifest = some path →
    (Path.ofText path).resolve cwd ≠ (Path.ofText r.input).resolve cwd
      ∧ (Path.ofText path).resolve cwd ≠ (Path.ofText r.output).resolve cwd

theorem apart_of_checkPaths {manifest : Option (List Char)} {cwd : Place}
    (h : r.checkPaths cwd manifest = .ok ()) : Apart r manifest cwd := by
  unfold Request.checkPaths at h
  obtain ⟨input, hinput, h⟩ := bind_eq_ok.mp h
  obtain ⟨output, houtput, h⟩ := bind_eq_ok.mp h
  obtain rfl := placeOf_eq_ok hinput
  obtain rfl := placeOf_eq_ok houtput
  by_cases hne : (Path.ofText r.output).resolve cwd = (Path.ofText r.input).resolve cwd
  · rw [if_pos hne] at h
    cases h
  rw [if_neg hne] at h
  refine ⟨hne, fun path hpath => ?_⟩
  subst hpath
  obtain ⟨place, hplace, h⟩ := bind_eq_ok.mp h
  obtain rfl := placeOf_eq_ok hplace
  by_cases hin : (Path.ofText path).resolve cwd = (Path.ofText r.input).resolve cwd
  · rw [if_pos hin] at h
    cases h
  rw [if_neg hin] at h
  by_cases hout : (Path.ofText path).resolve cwd = (Path.ofText r.output).resolve cwd
  · rw [if_pos hout] at h
    cases h
  · exact ⟨hin, hout⟩

/-- The text that the model file is opened by. -/
abbrev Request.inputText (r : Request) : List Char := (Path.ofText r.input).toText

theorem load_of_holds {files : Store} {bytes : Text.Bytes} (h : files.Holds r.inputText bytes) :
    Decl.Header.load files r.input = Decl.Header.ofBytes r.inputText bytes := by
  unfold Decl.Header.load
  dsimp only
  rw [Store.readFile?_eq_some.mpr h]
  rfl

/-- A model that was loaded is in a file. -/
theorem holds_of_load {files : Store} {header : Decl.Header}
    (h : Decl.Header.load files r.input = .ok header) :
    ∃ bytes, files.Holds r.inputText bytes := by
  unfold Decl.Header.load at h
  obtain ⟨found, hfound, h⟩ := bind_eq_ok.mp h
  cases found with
  | none => cases h
  | some bytes => exact ⟨bytes, Store.readFile?_eq_some.mp (mapError_eq_ok.mp hfound)⟩

/-! ## What is changed -/

/-- The files of a run, under a working directory. -/
def Request.Writes (r : Request) (manifest : Option (List Char)) (cwd place : Place) : Prop :=
  place = (Path.ofText r.output).resolve cwd
    ∨ ∃ path, manifest = some path ∧ place = (Path.ofText path).resolve cwd

/-- The places on the way to the files of a run. -/
def Request.Passes (r : Request) (manifest : Option (List Char)) (cwd place : Place) : Prop :=
  Path.Passes cwd (Path.ofText r.output) place
    ∨ ∃ path, manifest = some path ∧ Path.Passes cwd (Path.ofText path) place

theorem say_logs (level : Int) (message : String) (values : List Value) (s : Session) :
    Logs s (after (say level message values s)) :=
  remark_logs s _

theorem say_adds (level : Int) (message : String) (values : List Value) (s : Session) :
    Adds s (after (say level message values s)) :=
  remark_adds s _

theorem sayAll_logs (ls : List Log.Remark) (s : Session) : Logs s (after (sayAll ls s)) :=
  remarks_logs s ls

theorem applyPolicy_logs (policy : Config.Policy) (input : List Char)
    (failures : List Binding.Failure) (s : Session) :
    Logs s (after (applyPolicy policy input failures s)) := by
  unfold applyPolicy
  split
  · exact .refl s
  · refine after_bind (fun _ _ _ => .trans) (sayAll_logs _ s) fun _ t _ _ => ?_
    cases policy with
    | abort => exact .refl t
    | skip => exact say_logs _ _ _ t

/-- Saving a file of a run changes what the run may change. -/
theorem save_file_changes {manifest : Option (List Char)} {path : List Char} {cwd : Place}
    (hcwd : s.files.cwd = cwd) (hpath : path = r.output ∨ manifest = some path)
    (text : List Char) :
    Changes (r.Writes manifest cwd) (r.Passes manifest cwd) s
      (after (change RunError.file (Store.save path text) s)) := by
  subst hcwd
  rw [after_change]
  refine ⟨rfl, (Store.save_changes s.files path text).mono ?_ ?_⟩
  · rintro place rfl
    rcases hpath with rfl | hmanifest
    · exact .inl (.inl rfl)
    · exact .inl (.inr ⟨path, hmanifest, rfl⟩)
  · intro place hplace
    rcases hpath with rfl | hmanifest
    · exact .inl hplace
    · exact .inr ⟨path, hmanifest, hplace⟩

theorem writeFiles_changes (manifest : Option (List Char)) (names : Names)
    (emitted : Source.Emitted) {cwd : Place} (hcwd : s.files.cwd = cwd) :
    Changes (r.Writes manifest cwd) (r.Passes manifest cwd) s
      (after (writeFiles r.output manifest names emitted s)) := by
  have hlogs {u v : Session} (h : Logs u v) :
      Changes (r.Writes manifest cwd) (r.Passes manifest cwd) u v :=
    h.mono (fun _ h => h.elim) fun _ h => h.elim
  unfold writeFiles
  refine after_bind (fun _ _ _ => .trans) (save_file_changes hcwd (.inl rfl) _) fun _ t _ ht => ?_
  refine after_bind (fun _ _ _ => .trans) (hlogs (say_logs _ _ _ t)) fun _ u _ hu => ?_
  cases manifest with
  | none => exact .refl u
  | some path =>
    have hcwd' : u.files.cwd = cwd := hu.files.cwd.trans (ht.files.cwd.trans hcwd)
    dsimp only
    refine after_bind (fun _ _ _ => .trans) ?_ fun text v hv _ => ?_
    · rw [after_settle]
      exact .refl u
    · obtain ⟨-, rfl⟩ := settle_eq_ok.mp hv
      refine after_bind (fun _ _ _ => .trans) (save_file_changes hcwd' (.inr rfl) _)
        fun _ w _ _ => ?_
      exact hlogs (say_logs _ _ _ w)

theorem carryOut_changes (r : Request) (config : Value) (x : Prepared) (s : Session) :
    Changes (r.Writes x.manifest s.files.cwd) (r.Passes x.manifest s.files.cwd) s
      (after (carryOut r config x s)) := by
  have hlogs {u v : Session} (h : Logs u v) :
      Changes (r.Writes x.manifest s.files.cwd) (r.Passes x.manifest s.files.cwd) u v :=
    h.mono (fun _ h => h.elim) fun _ h => h.elim
  unfold carryOut
  refine after_bind (fun _ _ _ => .trans) (hlogs (sayAll_logs _ s)) fun _ t₁ _ h₁ => ?_
  refine after_bind (fun _ _ _ => .trans) ?_ fun names t₂ ht₂ h₂ => ?_
  · rw [after_settle]
    exact .refl t₁
  obtain ⟨-, rfl⟩ := settle_eq_ok.mp ht₂
  refine after_bind (fun _ _ _ => .trans) (hlogs (say_logs _ _ _ t₂)) fun _ t₃ _ h₃ => ?_
  refine after_bind (fun _ _ _ => .trans) (hlogs (sayAll_logs _ t₃)) fun _ t₄ _ h₄ => ?_
  refine after_bind (fun _ _ _ => .trans) ?_ fun made t₅ ht₅ h₅ => ?_
  · rw [after_settle]
    exact .refl t₄
  obtain ⟨-, rfl⟩ := settle_eq_ok.mp ht₅
  refine after_bind (fun _ _ _ => .trans) (hlogs (applyPolicy_logs _ _ _ t₅)) fun _ t₆ _ h₆ => ?_
  have hcwd : t₆.files.cwd = s.files.cwd :=
    ((h₁.trans h₃).trans (h₄.trans h₆)).files.cwd
  refine after_bind (fun _ _ _ => .trans) (writeFiles_changes _ _ _ hcwd) fun _ t₇ _ _ => ?_
  exact .refl t₇

/-! ## What a run that returned has done -/

theorem applyPolicy_eq_ok {policy : Config.Policy} {input : List Char}
    {failures : List Binding.Failure} :
    (∃ t, applyPolicy policy input failures s = .ok () t) ↔ failures = [] ∨ policy = .skip := by
  unfold applyPolicy
  cases failures with
  | nil => exact ⟨fun _ => .inl rfl, fun _ => ⟨s, rfl⟩⟩
  | cons f failures =>
    cases policy with
    | abort =>
      constructor
      · rintro ⟨t, h⟩
        cases h
      · rintro (h | h) <;> cases h
    | skip => exact ⟨fun _ => .inr rfl, fun _ => ⟨_, rfl⟩⟩

/-- The stages of a generation: the options, what was bound, the profile and the source. -/
structure Generates (config : Value) (names : Names) (header : Decl.Header) (bindgen : Value)
    (options : Binding.Options) (p : Source.Profile) (lowered : Binding.Lowered)
    (emitted : Source.Emitted) : Prop where
  bindgen_eq : Config.sectionOrEmpty config "bindgen" = .ok bindgen
  options_eq : Config.loweringOptions config = .ok options
  lowered_eq : Binding.lower options header = .ok lowered
  profile_eq : profile names bindgen options.elements = .ok p
  emitted_eq : Source.emit p lowered.bindings = .ok emitted

theorem generate_eq_ok {names : Names} {header : Decl.Header} {lowered : Binding.Lowered}
    {emitted : Source.Emitted} :
    generate config names header = .ok (lowered, emitted) ↔
      ∃ bindgen options p, Generates config names header bindgen options p lowered emitted := by
  unfold generate
  simp only [bind_eq_ok, Source.faulty, mapError_eq_ok]
  constructor
  · rintro ⟨bindgen, hbindgen, options, hoptions, lowered', hlowered, p, hprofile, emitted',
      hemitted, hpair⟩
    cases hpair
    exact ⟨bindgen, options, p, hbindgen, hoptions, hlowered, hprofile, hemitted⟩
  · rintro ⟨bindgen, options, p, h⟩
    exact ⟨bindgen, h.bindgen_eq, options, h.options_eq, lowered, h.lowered_eq, p, h.profile_eq,
      emitted, h.emitted_eq, rfl⟩

/-- What a prepared run makes, before it writes. -/
structure Made (r : Request) (config : Value) (x : Prepared) (names : Names)
    (lowered : Binding.Lowered) (emitted : Source.Emitted) : Prop where
  settled : settledNames r x.bindgen = .ok names
  generated : generate config names x.header = .ok (lowered, emitted)
  policy : lowered.failures = [] ∨ x.policy = .skip

/-- Once its source is there, a run has logged and nothing else; the policy comes next. -/
theorem carryOut_of_generated {x : Prepared} {names : Names} {lowered : Binding.Lowered}
    {emitted : Source.Emitted} (hsettled : settledNames r x.bindgen = .ok names)
    (hgenerated : generate config names x.header = .ok (lowered, emitted)) (s : Session) :
    ∃ u, Logs s u ∧ carryOut r config x s =
      (applyPolicy x.policy r.input lowered.failures >>= fun _ =>
        writeFiles r.output x.manifest names emitted >>= fun _ =>
          pure ⟨r.output, x.manifest, emitted.declaredNames, lowered.failures⟩) u := by
  let t₁ := after (sayAll [loaded x.header r.input] s)
  let t₂ := after (say Log.Level.info "Generating C# bindings for %s (%d declarations)"
    [names.libraryName, .int x.header.size] t₁)
  let t₃ := after (sayAll (remarks config names x.header) t₂)
  refine ⟨t₃, ?_, ?_⟩
  · exact (sayAll_logs _ s).trans ((say_logs _ _ _ t₁).trans (sayAll_logs _ t₂))
  · have hnames : settle ((settledNames r x.bindgen).mapError RunError.fault) t₁ = .ok names t₁ := by
      rw [hsettled]
      rfl
    have hmade : settle ((generate config names x.header).mapError RunError.emission) t₃
        = .ok (lowered, emitted) t₃ := by
      rw [hgenerated]
      rfl
    have hfirst : sayAll [loaded x.header r.input] s = .ok () t₁ := rfl
    have hsecond : say Log.Level.info "Generating C# bindings for %s (%d declarations)"
        [names.libraryName, .int x.header.size] t₁ = .ok () t₂ := rfl
    have hthird : sayAll (remarks config names x.header) t₂ = .ok () t₃ := rfl
    unfold carryOut
    rw [run_bind_ok hfirst, run_bind_ok hnames, run_bind_ok hsecond, run_bind_ok hthird,
      run_bind_ok hmade]

/-- Once everything is made, a run logs, writes its files and responds. -/
theorem Made.carryOut {x : Prepared} {names : Names} {lowered : Binding.Lowered}
    {emitted : Source.Emitted} (h : Made r config x names lowered emitted) (s : Session) :
    ∃ u, Logs s u ∧ carryOut r config x s =
      (writeFiles r.output x.manifest names emitted >>= fun _ =>
        pure ⟨r.output, x.manifest, emitted.declaredNames, lowered.failures⟩) u := by
  obtain ⟨t, hlogs, hcarry⟩ := carryOut_of_generated h.settled h.generated s
  obtain ⟨u, hu⟩ := (@applyPolicy_eq_ok t x.policy r.input lowered.failures).mpr h.policy
  have hpolicy := applyPolicy_logs x.policy r.input lowered.failures t
  rw [hu] at hpolicy
  exact ⟨u, hlogs.trans hpolicy, hcarry.trans (run_bind_ok hu)⟩

/-- A run that responded has made everything. -/
theorem made_of_carryOut {x : Prepared} {response : Response}
    (h : carryOut r config x s = .ok response t) :
    ∃ names lowered emitted, Made r config x names lowered emitted := by
  unfold carryOut at h
  obtain ⟨_, t₁, -, h⟩ := run_bind_eq_ok.mp h
  obtain ⟨names, t₂, hnames, h⟩ := run_bind_eq_ok.mp h
  obtain ⟨_, t₃, -, h⟩ := run_bind_eq_ok.mp h
  obtain ⟨_, t₄, -, h⟩ := run_bind_eq_ok.mp h
  obtain ⟨⟨lowered, emitted⟩, t₅, hgenerated, h⟩ := run_bind_eq_ok.mp h
  obtain ⟨_, t₆, hpolicy, -⟩ := run_bind_eq_ok.mp h
  exact ⟨names, lowered, emitted, mapError_eq_ok.mp (settle_eq_ok.mp hnames).1,
    mapError_eq_ok.mp (settle_eq_ok.mp hgenerated).1, applyPolicy_eq_ok.mp ⟨t₆, hpolicy⟩⟩

/-! ## Writing the files -/

section Writing

variable {manifest : Option (List Char)} {names : Names} {emitted : Source.Emitted}

/-- The steps of writing: the output, a remark, and the same for a manifest. -/
theorem writeFiles_steps {output : List Char}
    (h : writeFiles output manifest names emitted s = .ok () t) :
    ∃ files u, Store.save output emitted.source.toList s.files = .ok () files
      ∧ Adds { s with files } u
      ∧ ((manifest = none ∧ t = u) ∨ ∃ path text files', manifest = some path
        ∧ manifestText names.libraryName names.className emitted.declaredNames = .ok text
        ∧ Store.save path text u.files = .ok () files' ∧ Adds { u with files := files' } t) := by
  unfold writeFiles at h
  obtain ⟨_, v, hsave, hrest⟩ := run_bind_eq_ok.mp h
  obtain ⟨files, hfiles, rfl⟩ := change_eq_ok.mp hsave
  obtain ⟨_, u, hsay, hrest'⟩ := run_bind_eq_ok.mp hrest
  have hadds := say_adds Log.Level.info "Wrote %s" [slot output] { s with files }
  rw [hsay] at hadds
  refine ⟨files, u, hfiles, hadds, ?_⟩
  cases manifest with
  | none =>
    cases hrest'
    exact .inl ⟨rfl, rfl⟩
  | some path =>
    obtain ⟨text, w, hsettle, hlast⟩ := run_bind_eq_ok.mp hrest'
    obtain ⟨htext, rfl⟩ := settle_eq_ok.mp hsettle
    obtain ⟨_, v', hsave', hlast'⟩ := run_bind_eq_ok.mp hlast
    obtain ⟨files', hfiles', rfl⟩ := change_eq_ok.mp hsave'
    have hadds' := say_adds Log.Level.info "Wrote manifest %s" [slot path]
      { w with files := files' }
    rw [hlast'] at hadds'
    exact .inr ⟨path, text, files', rfl, mapError_eq_ok.mp htext, hfiles', hadds'⟩

/-- The files of a run begin with what was written.  One that is a log file may have more in it. -/
structure Wrote (output : List Char) (manifest : Option (List Char)) (names : Names)
    (emitted : Source.Emitted) (s : Session) : Prop where
  output : s.BeginsWith output emitted.source.toList
  manifest : ∀ path, manifest = some path →
    ∃ text, manifestText names.libraryName names.className emitted.declaredNames = .ok text
      ∧ s.BeginsWith path text

/-- The files of a run are found at their paths, holding what was written. -/
structure Present (output : List Char) (manifest : Option (List Char)) (names : Names)
    (emitted : Source.Emitted) (s : Session) : Prop where
  output : s.files.Holds output (Text.encode emitted.source.toList)
  manifest : ∀ path, manifest = some path →
    ∃ text, manifestText names.libraryName names.className emitted.declaredNames = .ok text
      ∧ s.files.Holds path (Text.encode text)

/-- No file of a run is a log file. -/
structure Unlogged (r : Request) (manifest : Option (List Char)) (s : Session) : Prop where
  input : (Path.ofText r.input).resolve s.files.cwd ∉ s.journal.places
  output : (Path.ofText r.output).resolve s.files.cwd ∉ s.journal.places
  manifest : ∀ path, manifest = some path →
    (Path.ofText path).resolve s.files.cwd ∉ s.journal.places

theorem Unlogged.changes (h : Unlogged r manifest s) {written way : Place → Prop}
    (hst : Session.Changes written way s t) : Unlogged r manifest t := by
  have hcwd : t.files.cwd = s.files.cwd := hst.files.cwd
  refine ⟨?_, ?_, fun path hpath => ?_⟩
  · rw [hst.journal, hcwd]
    exact h.input
  · rw [hst.journal, hcwd]
    exact h.output
  · rw [hst.journal, hcwd]
    exact h.manifest path hpath

theorem Present.logs (h : Present r.output manifest names emitted s) (hst : Logs s t)
    (hready : LogsReady s) (hfree : Unlogged r manifest s) :
    Present r.output manifest names emitted t := by
  refine ⟨hst.holds hready hfree.output h.output, fun path hpath => ?_⟩
  obtain ⟨text, htext, hholds⟩ := h.manifest path hpath
  exact ⟨text, htext, hst.holds hready (hfree.manifest path hpath) hholds⟩

/-- A file that is saved is the only one that changes. -/
theorem saved_changes {path text : List Char} {files : Store}
    (h : Store.save path text s.files = .ok () files) :
    Session.Changes (· = (Path.ofText path).resolve s.files.cwd)
      (Path.Passes s.files.cwd (Path.ofText path)) s { s with files } := by
  have hchanges := Store.save_changes s.files path text
  rw [h] at hchanges
  exact ⟨rfl, hchanges.mono (fun _ h => .inl h) fun _ h => h⟩

/-- Files that can be saved one after the other can be written. -/
theorem writeFiles_of_saves {output : List Char} {files : Store}
    (hsave : Store.save output emitted.source.toList s.files = .ok () files)
    (hmanifest : ∀ path u, manifest = some path → Logs { s with files } u →
      ∃ text files', manifestText names.libraryName names.className emitted.declaredNames = .ok text
        ∧ Store.save path text u.files = .ok () files') :
    ∃ t, writeFiles output manifest names emitted s = .ok () t := by
  have hlogs := say_logs Log.Level.info "Wrote %s" [slot output] { s with files }
  unfold writeFiles
  rw [run_bind_ok (change_eq_ok.mpr ⟨files, hsave, rfl⟩)]
  cases manifest with
  | none => exact ⟨_, rfl⟩
  | some path =>
    obtain ⟨text, files', htext, hsave'⟩ := hmanifest path _ rfl hlogs
    have hsay : say Log.Level.info "Wrote %s" [slot output] { s with files }
        = .ok () (after (say Log.Level.info "Wrote %s" [slot output] { s with files })) := rfl
    rw [run_bind_ok hsay]
    dsimp only
    rw [htext]
    exact ⟨_, run_bind_ok (change_eq_ok.mpr ⟨files', hsave', rfl⟩)⟩

/-- Once the files of a run are written they begin with what was written, and directories are kept. -/
theorem writeFiles_wrote (hapart : Apart r manifest s.files.cwd) (hready : LogsReady s)
    (h : writeFiles r.output manifest names emitted s = .ok () t) :
    Wrote r.output manifest names emitted t ∧ Store.KeepsDirectories s.files t.files := by
  obtain ⟨files, u, hsave, hadds, hrest⟩ := writeFiles_steps h
  have hsaved := saved_changes hsave
  obtain ⟨hbegins, hkeeps⟩ := saved_beginsWith hsave
  have hready₁ := hready.changes hsaved
  have hkeeps₁ := hadds.logs.keepsDirectories hready₁
  have houtput := hbegins.adds hadds hready₁
  rcases hrest with ⟨rfl, rfl⟩ | ⟨path, text, files', rfl, htext, hsave', hadds'⟩
  · exact ⟨⟨houtput, fun path hpath => nomatch hpath⟩, fun p hp => hkeeps₁ p (hkeeps p hp)⟩
  · have hsaved' := saved_changes hsave'
    obtain ⟨hbegins', hkeeps'⟩ := saved_beginsWith hsave'
    have hready₂ := (hready₁.changes hadds.logs).changes hsaved'
    have hkeeps₂ := hadds'.logs.keepsDirectories hready₂
    have hcwd : u.files.cwd = s.files.cwd := hadds.logs.files.cwd.trans hsaved.files.cwd
    -- The manifest is saved somewhere else, so what was saved as the output stays.
    have hother : (Path.ofText r.output).resolve u.files.cwd
        ≠ (Path.ofText path).resolve u.files.cwd := by
      rw [hcwd]
      exact fun heq => (hapart.manifest path rfl).2 heq.symm
    have houtput' := (houtput.beside hsave' hother).adds hadds' hready₂
    refine ⟨⟨houtput', ?_⟩, ?_⟩
    · intro path' hpath'
      cases hpath'
      exact ⟨text, htext, hbegins'.adds hadds' hready₂⟩
    · exact fun p hp => hkeeps₂ p (hkeeps' p (hkeeps₁ p (hkeeps p hp)))

/-- Files of a run that are no log files hold nothing but what was written. -/
theorem Wrote.present (h : Wrote r.output manifest names emitted t)
    (hfree : Unlogged r manifest t) : Present r.output manifest names emitted t := by
  refine ⟨h.output.holds hfree.output, fun path hpath => ?_⟩
  obtain ⟨text, htext, hbegins⟩ := h.manifest path hpath
  exact ⟨text, htext, hbegins.holds (hfree.manifest path hpath)⟩

theorem writeFiles_present (hapart : Apart r manifest s.files.cwd) (hready : LogsReady s)
    (hfree : Unlogged r manifest s)
    (h : writeFiles r.output manifest names emitted s = .ok () t) :
    Present r.output manifest names emitted t ∧ Store.KeepsDirectories s.files t.files := by
  obtain ⟨hwrote, hkeeps⟩ := writeFiles_wrote hapart hready h
  have hchanges := writeFiles_changes (r := r) manifest names emitted (rfl : s.files.cwd = _)
  rw [h] at hchanges
  exact ⟨hwrote.present (hfree.changes hchanges), hkeeps⟩

/-- Saving what a file holds changes nothing. -/
theorem save_logs {path text : List Char} (h : s.files.Holds path (Text.encode text)) :
    ∃ t, change RunError.file (Store.save path text) s = .ok () t ∧ Logs s t := by
  refine ⟨_, change_eq_ok.mpr ⟨_, Store.save_again h text, rfl⟩, rfl, ?_⟩
  exact h.set_changes

/-- Writing files that are there already changes nothing. -/
theorem writeFiles_again (h : Present r.output manifest names emitted s) (hready : LogsReady s)
    (hfree : Unlogged r manifest s) :
    ∃ t, writeFiles r.output manifest names emitted s = .ok () t ∧ Logs s t := by
  obtain ⟨u, hsave, hu⟩ := save_logs h.output
  have hsay := say_logs Log.Level.info "Wrote %s" [slot r.output] u
  unfold writeFiles
  rw [run_bind_ok hsave]
  cases manifest with
  | none => exact ⟨_, rfl, hu.trans hsay⟩
  | some path =>
    have hlogs := hu.trans hsay
    have hpresent := h.logs hlogs hready hfree
    obtain ⟨text, htext, hholds⟩ := hpresent.manifest path rfl
    obtain ⟨v, hsave', hv⟩ := save_logs hholds
    have hsay' := say_logs Log.Level.info "Wrote manifest %s" [slot path] v
    refine ⟨_, ?_, hlogs.trans (hv.trans hsay')⟩
    show (say Log.Level.info "Wrote %s" [slot r.output] >>= _) u = _
    rw [run_bind_ok (show say Log.Level.info "Wrote %s" [slot r.output] u = .ok () _ from rfl)]
    dsimp only
    rw [htext]
    exact run_bind_ok hsave'

end Writing

end Interop.Generation
